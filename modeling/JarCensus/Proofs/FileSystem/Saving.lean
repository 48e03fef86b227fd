import JarCensus.Proofs.FileSystem.Lookup
import Mathlib.Logic.Relation

/-! What making directories and writing a file do to a file tree. Directories are made only at free
places that one of the requested paths leads to afterwards, even if the request fails halfway; a
file is written at the one place that its path leads to. All other places stay as they were. -/
namespace JarCensus

/-- `outer` is what `path` lies in, or what that lies in, and so on. -/
def Path.LiesIn : Path → Path → Prop :=
  Relation.TransGen fun path parent => path.parent? = some parent

namespace Workspace

/-- A directory has been made at a free place, and one of `paths` leads to it. -/
structure Makes (paths : Path → Prop) (before after : Workspace) (place : Place) : Prop where
  free : before.tree.get? place = none
  made : after.tree.get? place = some .directory
  named : ∃ path, paths path ∧ after.find path = .ok (place, .directory)

/-- Nothing has changed but that directories have been made where `paths` lead. -/
structure Extends (paths : Path → Prop) (before after : Workspace) : Prop where
  here : after.here = before.here
  keeps : before.tree.Keeps after.tree
  change : ∀ place, after.tree.get? place = before.tree.get? place ∨
    Makes paths before after place

section Extends

variable {paths : Path → Prop} {before middle after : Workspace}

theorem Makes.of_keeps {place : Place} (makes : Makes paths before middle place)
    (keeps : middle.tree.Keeps after.tree) (here : after.here = middle.here) :
    Makes paths before after place where
  free := makes.free
  made := keeps.directory place makes.made
  named := by
    obtain ⟨path, requested, found⟩ := makes.named
    exact ⟨path, requested, find_directory_of_keeps keeps here found⟩

theorem Extends.refl (paths : Path → Prop) (files : Workspace) : Extends paths files files where
  here := rfl
  keeps := .refl _
  change _ := .inl rfl

theorem Extends.trans (first : Extends paths before middle) (second : Extends paths middle after) :
    Extends paths before after where
  here := second.here.trans first.here
  keeps := first.keeps.trans second.keeps
  change place := by
    rcases first.change place with same | makes
    · rcases second.change place with same' | makes
      · exact .inl (same'.trans same)
      · exact .inr { makes with free := same ▸ makes.free }
    · exact .inr (makes.of_keeps second.keeps second.here)

theorem Extends.mono {paths' : Path → Prop} (extension : Extends paths before after)
    (wider : ∀ path, paths path → paths' path) : Extends paths' before after where
  here := extension.here
  keeps := extension.keeps
  change place := by
    rcases extension.change place with same | makes
    · exact .inl same
    · obtain ⟨path, requested, found⟩ := makes.named
      exact .inr { makes with named := ⟨path, wider path requested, found⟩ }

end Extends

section Directories

variable {files files' : Workspace} {path : Path}

theorem makeDirectory_extends (made : files.makeDirectory path = .ok files') :
    Extends (· = path) files files' := by
  rw [makeDirectory, bind_eq_ok_iff] at made
  obtain ⟨destination, located, made⟩ := made
  cases destination with
  | present place object => cases made
  | vacant place slashed =>
    cases made
    have free : files.tree.get? place = none := locate_accurate located
    have keeps := FileTree.Keeps.put (.inl free) .directory
    have there := FileTree.get?_put_self (.inl free) .directory
    refine ⟨rfl, keeps, fun other => ?_⟩
    by_cases same : other = place
    · subst same
      exact .inr ⟨free, there, path, rfl, find_of_keeps keeps rfl located (.made there)⟩
    · exact .inl (FileTree.get?_put_other same .directory)

theorem ensureDirectory_extends (ensured : files.ensureDirectory path = .ok files') :
    Extends (· = path) files files' := by
  rw [ensureDirectory] at ensured
  cases outcome : files.makeDirectory path with
  | ok made =>
    rw [outcome] at ensured
    cases ensured
    exact makeDirectory_extends outcome
  | error error =>
    rw [outcome] at ensured
    by_cases directory : files.isDirectory path = true
    · simp only [directory, if_true, Except.ok.injEq] at ensured
      subst ensured
      exact .refl _ files
    · simp [directory] at ensured

theorem ensureAll_extends (files : Workspace) (paths : List Path) :
    Extends (· ∈ paths) files (files.ensureAll paths).1 := by
  induction paths generalizing files with
  | nil => exact .refl _ files
  | cons path rest ih =>
    rw [ensureAll]
    cases outcome : files.ensureDirectory path with
    | error error => exact .refl _ files
    | ok next =>
      have first : Extends (· ∈ path :: rest) files next :=
        (ensureDirectory_extends outcome).mono fun _ same => same ▸ List.mem_cons_self
      have others : Extends (· ∈ path :: rest) next (next.ensureAll rest).1 :=
        (ih next).mono fun _ member => List.mem_cons_of_mem path member
      exact first.trans others

theorem mem_of_mem_unmade {done paths missing : List Path}
    (collected : files.unmade done paths = .ok missing) {path : Path} (member : path ∈ missing) :
    path ∈ done ∨ path ∈ paths := by
  fun_induction files.unmade done paths with
  | case1 done =>
    cases collected
    exact .inl member
  | case2 done first rest made outcome =>
    cases collected
    rcases List.mem_cons.mp member with rfl | earlier
    · exact .inr List.mem_cons_self
    · exact .inl earlier
  | case3 done first rest outcome ih =>
    rcases ih collected with earlier | later
    · rcases List.mem_cons.mp earlier with rfl | earlier
      · exact .inr List.mem_cons_self
      · exact .inl earlier
    · exact .inr (List.mem_cons_of_mem first later)
  | case4 done first rest error outcome other directory =>
    cases collected
    exact .inl member
  | case5 => cases collected

theorem liesIn_of_mem_lineage {fuel : Nat} {path outer : Path}
    (member : outer ∈ lineage fuel path) : outer = path ∨ path.LiesIn outer := by
  induction fuel generalizing path with
  | zero => cases member
  | succ fuel ih =>
    rw [lineage] at member
    by_cases empty : path.bytes.isEmpty = true
    · simp [empty] at member
    · rw [if_neg empty] at member
      rcases List.mem_cons.mp member with same | further
      · exact .inl same
      · cases parent : path.parent? with
        | none => simp [parent] at further
        | some inner =>
          rw [parent] at further
          rcases ih further with rfl | above
          · exact .inr (.single parent)
          · exact .inr (.head parent above)

theorem makeDirectories_extends (files : Workspace) (path : Path) :
    Extends (fun outer => outer = path ∨ path.LiesIn outer) files
      (files.makeDirectories path).1 := by
  rw [makeDirectories]
  cases outcome : files.unmade [] (lineage (path.bytes.length + 1) path) with
  | error error => exact .refl _ files
  | ok missing =>
    refine (ensureAll_extends files missing).mono fun outer member => ?_
    rcases mem_of_mem_unmade outcome member with none | inside
    · cases none
    · exact liesIn_of_mem_lineage inside

end Directories

/-- Writing puts the file where its path leads then, in the place of a file or of nothing. -/
theorem exists_put_of_write {files files' : Workspace} {path : Path} {content : ByteArray}
    (written : files.write path content = .ok files') :
    ∃ place, files.tree.Replaceable place ∧ files' = files.put place (.file content) ∧
      files'.find path = .ok (place, .file content) := by
  rw [write, bind_eq_ok_iff] at written
  obtain ⟨destination, located, written⟩ := written
  have accurate := locate_accurate located
  match destination, located, accurate, written with
  | .vacant place false, located, free, written =>
    cases written
    have keeps := FileTree.Keeps.put (.inl free) (.file content)
    have there := FileTree.get?_put_self (.inl free) (.file content)
    exact ⟨place, .inl free, rfl, find_of_keeps keeps rfl located (.created there)⟩
  | .present place (.file old), located, file, written =>
    cases written
    have keeps := FileTree.Keeps.put (.inr ⟨old, file⟩) (.file content)
    have there := FileTree.get?_put_self (.inr ⟨old, file⟩) (.file content)
    exact ⟨place, .inr ⟨old, file⟩, rfl, find_of_keeps keeps rfl located (.rewritten there)⟩
  | .vacant _ true, _, _, written => cases written
  | .present _ .directory, _, _, written => cases written
  | .present _ (.link _), _, _, written => cases written

end Workspace

end JarCensus
