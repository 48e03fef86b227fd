import JarCensus.FileSystem.Basic
import JarCensus.Proofs.Results

/-! Where paths lead after a tree has changed. As long as directories and links stay, paths lead
through them as before, so what is put at a free name, or in the place of a file, is found again
under the path that led there. -/
namespace JarCensus

namespace FileTree

/-- Directories and links are where they were. -/
structure Keeps (tree tree' : FileTree) : Prop where
  directory : ∀ place, tree.get? place = some .directory → tree'.get? place = some .directory
  link : ∀ place target, tree.get? place = some (.link target) →
    tree'.get? place = some (.link target)

theorem Keeps.refl (tree : FileTree) : tree.Keeps tree where
  directory _ there := there
  link _ _ there := there

theorem Keeps.trans {tree tree' tree'' : FileTree} (first : tree.Keeps tree')
    (second : tree'.Keeps tree'') : tree.Keeps tree'' where
  directory place there := second.directory place (first.directory place there)
  link place target there := second.link place target (first.link place target there)

/-- Nothing stands at the place, or a file. -/
def Replaceable (tree : FileTree) (place : Place) : Prop :=
  tree.get? place = none ∨ ∃ content, tree.get? place = some (.file content)

section Put

variable {tree : FileTree} {place : Place}

theorem Replaceable.ne_root (free : tree.Replaceable place) : place ≠ [] := by
  rintro rfl
  rcases free with none | ⟨content, file⟩
  · simp [get?] at none
  · simp [get?] at file

theorem get?_put_self (free : tree.Replaceable place) (object : Object) :
    (tree.put place object).get? place = some object := by
  simp [get?, put, free.ne_root]

theorem get?_put_other {other : Place} (different : other ≠ place) (object : Object) :
    (tree.put place object).get? other = tree.get? other := by
  simp [get?, put, Std.ExtTreeMap.getElem?_insert, Ne.symm different]

theorem Keeps.put (free : tree.Replaceable place) (object : Object) :
    tree.Keeps (tree.put place object) := by
  have elsewhere (other : Place) (kept : Object) (solid : ∀ content, kept ≠ .file content)
      (there : tree.get? other = some kept) :
      (tree.put place object).get? other = some kept := by
    rw [get?_put_other _ object, there]
    rintro rfl
    rcases free with none | ⟨content, file⟩
    · simp [there] at none
    · rw [there] at file
      exact solid content (Option.some.inj file)
  exact ⟨fun other => elsewhere other _ nofun, fun other target => elsewhere other _ nofun⟩

end Put

/-- Where the path of a destination leads in another tree: to the same directory, or to what has
been put there. -/
inductive Settles (tree : FileTree) : Destination → Destination → Prop
  | directory (place : Place) : Settles tree (.present place .directory) (.present place .directory)
  | made {place : Place} {slashed : Bool} (there : tree.get? place = some .directory) :
    Settles tree (.vacant place slashed) (.present place .directory)
  | created {place : Place} {content : ByteArray} (there : tree.get? place = some (.file content)) :
    Settles tree (.vacant place false) (.present place (.file content))
  | rewritten {place : Place} {old content : ByteArray}
    (there : tree.get? place = some (.file content)) :
    Settles tree (.present place (.file old)) (.present place (.file content))

/-- The same for part of a path. -/
inductive Continues (tree : FileTree) : Stretch → Stretch → Prop
  | linked (here : Place) (names : List Name) :
    Continues tree (.linked here names) (.linked here names)
  | arrived {destination destination' : Destination}
    (settles : Settles tree destination destination') :
    Continues tree (.arrived destination) (.arrived destination')

section Follow

variable {tree tree' : FileTree} {purpose : Purpose} {here : Place} {names : List Name}

theorem descend_of_all_isEmpty (tree : FileTree) (purpose : Purpose) (here : Place)
    (slashes : names.all List.isEmpty = true) :
    tree.descend purpose here names = .ok (.arrived (.present here .directory)) := by
  induction names with
  | nil => rfl
  | cons name rest ih =>
    simp only [List.all_cons, Bool.and_eq_true] at slashes
    rw [descend, if_pos (by simp [Path.isIdle, slashes.1]), ih slashes.2]

/-- A name that leads down leads to what stands at it. -/
theorem descend_reach_cons {name : Name} {rest : List Name} (down : ¬Path.isIdle name = true)
    (notUp : ¬name = Path.up) (short : ¬nameLimit < name.length) :
    tree.descend .reach here (name :: rest) =
      match tree.get? (here ++ [name]) with
      | none =>
        if rest.all List.isEmpty then .ok (.arrived (.vacant (here ++ [name]) (!rest.isEmpty)))
        else .error .notFound
      | some (.file content) =>
        if rest.isEmpty then .ok (.arrived (.present (here ++ [name]) (.file content)))
        else .error .notDirectory
      | some .directory => tree.descend .reach (here ++ [name]) rest
      | some (.link target) =>
        .ok (.linked (if target.isAbsolute then [] else here) (target.parts ++ rest)) := by
  rw [descend, if_neg down, if_neg notUp, if_neg (by simp), if_neg short]
  dsimp only
  cases tree.get? (here ++ [name]) with
  | none => rfl
  | some object =>
    cases object with
    | file content => rfl
    | directory => rfl
    | link target => simp

theorem descend_of_keeps {stretch stretch' : Stretch} (keeps : tree.Keeps tree')
    (followed : tree.descend purpose here names = .ok stretch)
    (continues : Continues tree' stretch stretch') :
    tree'.descend .reach here names = .ok stretch' := by
  fun_induction tree.descend purpose here names with
  | case1 here =>
    cases followed
    cases continues with
    | arrived settles =>
      cases settles
      rfl
  | case2 here name rest idle ih =>
    rw [descend, if_pos idle]
    exact ih followed
  | case3 here rest idle ih =>
    rw [descend, if_neg idle, if_pos rfl]
    exact ih followed
  | case4 | case5 | case7 | case9 => cases followed
  | case6 here name rest down notUp _ short place none slashes =>
    cases followed
    -- a file that has been made is found only if no slash follows its name, a directory always
    rw [descend_reach_cons down notUp short]
    generalize slashed : (!rest.isEmpty) = last at continues
    rcases continues with _ | ⟨⟨⟩ | there | there⟩
    · simp only [place] at there
      rw [there]
      exact descend_of_all_isEmpty tree' .reach place slashes
    · simp only [place] at there
      rw [there]
      exact if_pos (by simpa using slashed)
  | case8 here name rest down notUp _ short place content file last =>
    cases followed
    rw [descend_reach_cons down notUp short]
    rcases continues with _ | ⟨_ | _ | _ | there⟩
    simp only [place] at there
    rw [there]
    exact if_pos last
  | case10 here name rest down notUp _ short place directory ih =>
    rw [descend_reach_cons down notUp short, keeps.directory _ directory]
    exact ih followed
  | case11 here name rest down notUp _ short place target link last =>
    cases followed
    cases continues with
    | arrived settles => cases settles
  | case12 here name rest down notUp _ short place target link last =>
    cases followed
    cases continues
    rw [descend_reach_cons down notUp short, keeps.link _ _ link]

/-- A walk arrives without a link, or follows one and goes on. -/
theorem walk_eq_ok_iff {links : Nat} {destination : Destination} :
    tree.walk purpose links here names = .ok destination ↔
      tree.descend purpose here names = .ok (.arrived destination) ∨
      ∃ left next more, links = left + 1 ∧
        tree.descend purpose here names = .ok (.linked next more) ∧
        tree.walk purpose left next more = .ok destination := by
  rw [walk]
  cases tree.descend purpose here names with
  | error error => simp
  | ok stretch =>
    cases stretch with
    | arrived arrival => simp
    | linked next more =>
      cases links with
      | zero => simp
      | succ left =>
        constructor
        · intro onward
          exact .inr ⟨left, next, more, rfl, rfl, onward⟩
        · rintro (⟨⟨⟩⟩ | ⟨_, _, _, ⟨⟩, ⟨⟩, onward⟩)
          exact onward

theorem walk_of_keeps {links : Nat} {destination destination' : Destination}
    (keeps : tree.Keeps tree') (followed : tree.walk purpose links here names = .ok destination)
    (settles : Settles tree' destination destination') :
    tree'.walk .reach links here names = .ok destination' := by
  induction links using Nat.strongRecOn generalizing here names with
  | ind links ih =>
    rcases walk_eq_ok_iff.mp followed with arrived | ⟨left, next, more, rfl, linked, onward⟩
    · exact walk_eq_ok_iff.mpr (.inl (descend_of_keeps keeps arrived (.arrived settles)))
    · have again := descend_of_keeps keeps linked (.linked next more)
      have further := ih left (Nat.lt_succ_self left) onward
      exact walk_eq_ok_iff.mpr (.inr ⟨left, next, more, rfl, again, further⟩)

/-- Free names are free, and files are there. -/
def Destination.Accurate (tree : FileTree) : Destination → Prop
  | .vacant place _ => tree.get? place = none
  | .present place (.file content) => tree.get? place = some (.file content)
  | .present _ _ => True

theorem descend_accurate {destination : Destination}
    (followed : tree.descend purpose here names = .ok (.arrived destination)) :
    destination.Accurate tree := by
  fun_induction tree.descend purpose here names with
  | case1 here =>
    cases followed
    trivial
  | case2 here name rest idle ih | case3 here rest idle ih => exact ih followed
  | case4 | case5 | case7 | case9 | case12 => cases followed
  | case6 here name rest down notUp _ short place none slashes =>
    cases followed
    exact none
  | case8 here name rest down notUp _ short place content file last =>
    cases followed
    exact file
  | case10 here name rest down notUp _ short place directory ih => exact ih followed
  | case11 here name rest down notUp _ short place target link last =>
    cases followed
    trivial

theorem walk_accurate {links : Nat} {destination : Destination}
    (followed : tree.walk purpose links here names = .ok destination) :
    destination.Accurate tree := by
  induction links using Nat.strongRecOn generalizing here names with
  | ind links ih =>
    rcases walk_eq_ok_iff.mp followed with arrived | ⟨left, next, more, rfl, -, onward⟩
    · exact descend_accurate arrived
    · exact ih left (Nat.lt_succ_self left) onward

end Follow

end FileTree

namespace Workspace

open FileTree (Destination Purpose Settles linkLimit pathLimit)

section Locate

variable {files files' : Workspace} {purpose : Purpose} {path : Path}

theorem locate_eq_ok_iff {destination : Destination} :
    files.locate purpose path = .ok destination ↔
      ¬path.bytes.contains 0 = true ∧ ¬path.bytes.isEmpty = true ∧
      ¬pathLimit ≤ path.bytes.length ∧
      files.tree.walk purpose linkLimit (if path.isAbsolute then [] else files.here) path.parts =
        .ok destination := by
  rw [locate]
  by_cases nul : path.bytes.contains 0 = true
  · rw [if_pos nul]
    exact iff_of_false nofun fun located => located.1 nul
  by_cases empty : path.bytes.isEmpty = true
  · rw [if_neg nul, if_pos empty]
    exact iff_of_false nofun fun located => located.2.1 empty
  by_cases long : pathLimit ≤ path.bytes.length
  · rw [if_neg nul, if_neg empty, if_pos long]
    exact iff_of_false nofun fun located => located.2.2.1 long
  · rw [if_neg nul, if_neg empty, if_neg long, mapError_eq_ok_iff]
    constructor
    · intro followed
      exact ⟨nul, empty, long, followed⟩
    · intro located
      exact located.2.2.2

theorem find_eq_ok_iff {place : Place} {object : Object} :
    files.find path = .ok (place, object) ↔
      files.locate .reach path = .ok (.present place object) := by
  rw [find, bind_eq_ok_iff]
  constructor
  · rintro ⟨destination, located, found⟩
    cases destination with
    | present there thing =>
      cases found
      exact located
    | vacant there slashed => cases found
  · intro located
    exact ⟨_, located, rfl⟩

/-- A path that led to a free name or a file leads to what has been put there. -/
theorem find_of_keeps {destination : Destination} {place : Place} {object : Object}
    (keeps : files.tree.Keeps files'.tree) (here : files'.here = files.here)
    (located : files.locate purpose path = .ok destination)
    (settles : Settles files'.tree destination (.present place object)) :
    files'.find path = .ok (place, object) := by
  obtain ⟨clean, named, short, followed⟩ := locate_eq_ok_iff.mp located
  refine find_eq_ok_iff.mpr (locate_eq_ok_iff.mpr ⟨clean, named, short, ?_⟩)
  rw [here]
  exact FileTree.walk_of_keeps keeps followed settles

theorem find_directory_of_keeps {place : Place} (keeps : files.tree.Keeps files'.tree)
    (here : files'.here = files.here) (found : files.find path = .ok (place, .directory)) :
    files'.find path = .ok (place, .directory) :=
  find_of_keeps keeps here (find_eq_ok_iff.mp found) (.directory place)

theorem locate_accurate {destination : Destination}
    (located : files.locate purpose path = .ok destination) : destination.Accurate files.tree :=
  FileTree.walk_accurate (locate_eq_ok_iff.mp located).2.2.2

end Locate

end Workspace

end JarCensus
