import JarCensus.ClassFile.Basic
import Std.Data.ExtTreeMap
import Std.Data.ExtTreeSet

/-! Supertypes of a set of classes, and the breadth-first walk through them. Supertypes of classes
outside the set are unknown, so the walk ends there. -/
namespace JarCensus

/-- The direct supertypes of a class: its superclass, then its interfaces in declared order. -/
def ClassFile.supertypes (cls : ClassFile) : List String :=
  cls.superName.toList ++ cls.interfaces

structure Hierarchy where
  parents : Std.ExtTreeMap String (List String)

namespace Hierarchy

/-- Of several classes with one name the last counts. -/
def ofClasses (classes : List ClassFile) : Hierarchy :=
  ⟨classes.foldl (fun parents cls => parents.insert cls.name cls.supertypes) ∅⟩

/-- Walks a queue of names onto `done`, latest first. `pending` holds the supertypes of classes not
yet visited, so every visit makes it or the queue smaller. -/
def walk (pending : Std.ExtTreeMap String (List String)) (seen : Std.ExtTreeSet String)
    (done : List String) : (queue : List String) → List String
  | [] => done.reverse
  | name :: queue =>
    if name ∈ seen then walk pending seen done queue
    else if present : name ∈ pending then
      walk (pending.erase name) (seen.insert name) (name :: done) (queue ++ pending[name])
    else walk pending (seen.insert name) (name :: done) queue
termination_by queue => (pending.size, queue.length)
decreasing_by
  · exact Prod.Lex.right _ (Nat.lt_succ_self _)
  · refine Prod.Lex.left _ _ ?_
    have nonempty : pending.size ≠ 0 := by
      intro empty
      rw [← Std.ExtTreeMap.eq_empty_iff_size_eq_zero] at empty
      simp [empty] at present
    rw [Std.ExtTreeMap.size_erase, if_pos (Std.ExtTreeMap.mem_iff_contains.mp present)]
    omega
  · exact Prod.Lex.right _ (Nat.lt_succ_self _)

/-- `start` and its supertypes, nearest first, each once. -/
def ancestors (hierarchy : Hierarchy) (start : String) : List String :=
  walk hierarchy.parents ∅ [] [start]

/-- The direct supertypes of `name`; a name outside the hierarchy has none. -/
def above (types : Hierarchy) (name : String) : List String := types.parents.getD name []

/-- A walk that is taken name by name: the names it has given, and those it is yet to look at. -/
structure Traversal (types : Hierarchy) where
  seen : Std.ExtTreeSet String
  queue : List String

namespace Traversal

variable {types : Hierarchy}

/-- The first name of the queue that was not given before, and the walk after it. Nothing behind
that name is looked at; its own supertypes come last. -/
def nextFrom (seen : Std.ExtTreeSet String) : List String → Option (String × Traversal types)
  | [] => none
  | name :: queue =>
    if name ∈ seen then nextFrom seen queue
    else some (name, ⟨seen.insert name, queue ++ types.above name⟩)

def next? (walk : Traversal types) : Option (String × Traversal types) :=
  nextFrom walk.seen walk.queue

def take : (limit : Nat) → Traversal types → List String
  | 0, _ => []
  | limit + 1, walk =>
    match walk.next? with
    | none => []
    | some (name, rest) => name :: take limit rest

end Traversal

def traversal (types : Hierarchy) (start : String) : Traversal types := ⟨∅, [start]⟩

end Hierarchy

end JarCensus
