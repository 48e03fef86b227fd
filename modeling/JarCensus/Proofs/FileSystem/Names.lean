import JarCensus.Proofs.FileSystem.Lookup
import JarCensus.Proofs.FileSystem.PathOrder
import Mathlib.Logic.Relation

/-! Everything stands at names that a directory can list: not `.`, `..` or the empty name, and
nothing with a slash in it. Paths lead to such names only, so no request puts anything elsewhere. -/
namespace JarCensus

theorem Path.slash_not_mem_of_mem_parts {path : Path} {part : Name} (member : part ∈ path.parts) :
    slash ∉ part := by
  intro slashed
  rw [parts_eq] at member
  have clean := Text.not_isSeparator_of_mem member slash slashed
  simp at clean

/-- Names that a directory can list. -/
def Path.AreNames (names : List Name) : Prop := ∀ name ∈ names, IsName name

instance (names : List Name) : Decidable (Path.AreNames names) :=
  inferInstanceAs (Decidable (∀ name ∈ names, Path.IsName name))

theorem Path.areNames_nil : AreNames [] := List.forall_mem_nil _

namespace FileTree

/-- Everything stands at names that a directory can list. -/
def Named (tree : FileTree) : Prop :=
  ∀ place object, tree.get? place = some object → Path.AreNames place

section Change

variable {tree : FileTree}

theorem named_empty : empty.Named := by
  intro place object there
  by_cases root : place = []
  · subst root
    exact Path.areNames_nil
  · simp [get?, root, empty] at there

theorem Named.put (named : tree.Named) {place : Place} (names : Path.AreNames place)
    (object : Object) : (tree.put place object).Named := by
  intro other object' there
  by_cases same : other = place
  · rwa [same]
  · rw [get?_put_other same] at there
    exact named other object' there

theorem Named.prune (named : tree.Named) (place : Place) : (tree.prune place).Named := by
  intro other object there
  by_cases root : other = []
  · subst root
    exact Path.areNames_nil
  · simp only [get?, FileTree.prune, List.isEmpty_iff, root, if_false] at there
    refine named other object ?_
    rw [get?, if_neg (by simpa using root)]
    rw [Std.ExtTreeMap.getElem?_filter', Option.filter_eq_some_iff] at there
    exact there.1

end Change

/-- The place of a destination. -/
def Destination.place : Destination → Place
  | .present place _ => place
  | .vacant place _ => place

/-- What names lead to is at names again, and what is still to be followed has no slashes. -/
def Stretch.Named : Stretch → Prop
  | .arrived destination => Path.AreNames destination.place
  | .linked here names => Path.AreNames here ∧ ∀ name ∈ names, Path.slash ∉ name

section Follow

variable {tree : FileTree} {purpose : Purpose} {here : Place} {names : List Name}

theorem descend_named {stretch : Stretch} (named : Path.AreNames here)
    (cut : ∀ name ∈ names, Path.slash ∉ name)
    (followed : tree.descend purpose here names = .ok stretch) : stretch.Named := by
  have down {here : Place} {name : Name} (named : Path.AreNames here)
      (solid : ¬Path.isIdle name = true) (notUp : ¬name = Path.up) (noSlash : Path.slash ∉ name) :
      Path.AreNames (here ++ [name]) :=
    List.forall_mem_append.mpr ⟨named, List.forall_mem_singleton.mpr
      ⟨Bool.eq_false_iff.mpr solid, notUp, noSlash⟩⟩
  fun_induction tree.descend purpose here names with
  | case1 here =>
    cases followed
    exact named
  | case2 here name rest idle ih =>
    exact ih named (List.forall_mem_cons.mp cut).2 followed
  | case3 here rest idle ih =>
    refine ih ?_ (List.forall_mem_cons.mp cut).2 followed
    intro name member
    exact named name (List.mem_of_mem_dropLast member)
  | case4 | case5 | case7 | case9 => cases followed
  | case6 here name rest solid notUp _ _ place none slashes
  | case8 here name rest solid notUp _ _ place content file last
  | case11 here name rest solid notUp _ _ place target link last =>
    cases followed
    exact down named solid notUp (List.forall_mem_cons.mp cut).1
  | case10 here name rest solid notUp _ short place directory ih =>
    obtain ⟨noSlash, cut⟩ := List.forall_mem_cons.mp cut
    exact ih (down named solid notUp noSlash) cut followed
  | case12 here name rest solid notUp _ short place target link last =>
    cases followed
    refine ⟨?_, List.forall_mem_append.mpr ⟨fun part => Path.slash_not_mem_of_mem_parts,
      (List.forall_mem_cons.mp cut).2⟩⟩
    split
    · exact Path.areNames_nil
    · exact named

theorem walk_named {links : Nat} {destination : Destination} (named : Path.AreNames here)
    (cut : ∀ name ∈ names, Path.slash ∉ name)
    (followed : tree.walk purpose links here names = .ok destination) :
    Path.AreNames destination.place := by
  induction links using Nat.strongRecOn generalizing here names with
  | ind links ih =>
    rcases walk_eq_ok_iff.mp followed with arrived | ⟨left, next, more, rfl, linked, onward⟩
    · exact descend_named named cut arrived
    · obtain ⟨named, cut⟩ := descend_named named cut linked
      exact ih left (Nat.lt_succ_self left) named cut onward

end Follow

end FileTree

namespace Workspace

/-- Everything stands at names that a directory can list, and so does the working directory. -/
structure Named (files : Workspace) : Prop where
  tree : files.tree.Named
  here : Path.AreNames files.here

/-- A request that changes the file tree, whether or not it gets done what it is for. -/
inductive Changes : Workspace → Workspace → Prop
  | write {files files' : Workspace} {path : Path} {content : ByteArray}
    (written : files.write path content = .ok files') : Changes files files'
  | makeDirectories (files : Workspace) (path : Path) :
    Changes files (files.makeDirectories path).1
  | makeLink {files files' : Workspace} {path target : Path}
    (made : files.makeLink path target = .ok files') : Changes files files'
  | remove {files files' : Workspace} {path : Path}
    (removed : files.remove path = .ok files') : Changes files files'

section Named

variable {files files' : Workspace} {path : Path}

theorem Named.locate (named : files.Named) {purpose : FileTree.Purpose}
    {destination : FileTree.Destination}
    (located : files.locate purpose path = .ok destination) : Path.AreNames destination.place := by
  refine FileTree.walk_named ?_ (fun part => Path.slash_not_mem_of_mem_parts)
    (locate_eq_ok_iff.mp located).2.2.2
  split
  · exact Path.areNames_nil
  · exact named.here

theorem Named.put (named : files.Named) {place : Place} (names : Path.AreNames place)
    (object : Object) : (files.put place object).Named :=
  ⟨named.tree.put names object, named.here⟩

theorem Named.write {content : ByteArray} (named : files.Named)
    (written : files.write path content = .ok files') : files'.Named := by
  rw [Workspace.write, bind_eq_ok_iff] at written
  obtain ⟨destination, located, written⟩ := written
  have names := named.locate located
  match destination with
  | .vacant place false | .present place (.file _) =>
    cases written
    exact named.put names (.file content)
  | .vacant _ true | .present _ .directory | .present _ (.link _) => cases written

theorem Named.makeDirectory (named : files.Named)
    (made : files.makeDirectory path = .ok files') : files'.Named := by
  rw [Workspace.makeDirectory, bind_eq_ok_iff] at made
  obtain ⟨destination, located, made⟩ := made
  cases destination with
  | present place object => cases made
  | vacant place slashed =>
    cases made
    exact named.put (named.locate located) .directory

theorem Named.ensureDirectory (named : files.Named)
    (ensured : files.ensureDirectory path = .ok files') : files'.Named := by
  rw [Workspace.ensureDirectory] at ensured
  split at ensured
  next made outcome =>
    cases ensured
    exact named.makeDirectory outcome
  next =>
    split at ensured
    next =>
      cases ensured
      exact named
    next => cases ensured

theorem Named.ensureAll (named : files.Named) (paths : List Path) :
    (files.ensureAll paths).1.Named := by
  induction paths generalizing files with
  | nil => exact named
  | cons path rest ih =>
    rw [Workspace.ensureAll]
    cases outcome : files.ensureDirectory path with
    | ok next => exact ih (named.ensureDirectory outcome)
    | error error => exact named

theorem Named.makeDirectories (named : files.Named) (path : Path) :
    (files.makeDirectories path).1.Named := by
  rw [Workspace.makeDirectories]
  split
  next missing _ => exact named.ensureAll missing
  next => exact named

theorem Named.makeLink {target : Path} (named : files.Named)
    (made : files.makeLink path target = .ok files') : files'.Named := by
  rw [Workspace.makeLink, bind_eq_ok_iff] at made
  obtain ⟨destination, located, made⟩ := made
  match destination with
  | .vacant place false =>
    cases made
    exact named.put (named.locate located) (.link target)
  | .vacant _ true | .present _ _ => cases made

theorem Named.remove (named : files.Named)
    (removed : files.remove path = .ok files') : files'.Named := by
  rw [Workspace.remove, bind_eq_ok_iff] at removed
  obtain ⟨destination, -, removed⟩ := removed
  cases destination with
  | present place object =>
    cases removed
    exact ⟨named.tree.prune place, named.here⟩
  | vacant place slashed => cases removed

theorem Named.changes (named : files.Named) (changed : Changes files files') : files'.Named := by
  cases changed with
  | write written => exact named.write written
  | makeDirectories path => exact named.makeDirectories path
  | makeLink made => exact named.makeLink made
  | remove removed => exact named.remove removed

/-- No sequence of requests puts anything at a name that a directory cannot list. -/
theorem Named.requests (named : files.Named)
    (requested : Relation.ReflTransGen Changes files files') : files'.Named := by
  induction requested with
  | refl => exact named
  | tail _ changed ih => exact ih.changes changed

end Named

end Workspace

end JarCensus
