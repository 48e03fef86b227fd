import JarCensus.Hierarchy
import Mathlib.Order.Lattice.Nat

/-! The walk through supertypes is breadth first. It gives every name that superclass and interface
edges lead to, each once and nearest first, and ends; so does the walk that is taken name by name,
which stops wherever its user does. -/
namespace JarCensus.Hierarchy

variable {types : Hierarchy} {start name : String} {names : List String}

/-- So many edges lead from `start` up to a name. -/
inductive Climb (types : Hierarchy) (start : String) : Nat → String → Prop
  | here : Climb types start 0 start
  | up {steps : Nat} {name parent : String} (climb : Climb types start steps name)
      (edge : parent ∈ types.above name) : Climb types start (steps + 1) parent

/-- The fewest edges that lead from `start` to `name`, where there is a way. -/
noncomputable def distance (types : Hierarchy) (start name : String) : Nat :=
  sInf {steps | types.Climb start steps name}

theorem Climb.distance_le {steps : Nat} (climb : types.Climb start steps name) :
    types.distance start name ≤ steps :=
  Nat.sInf_le climb

theorem Climb.shortest {steps : Nat} (climb : types.Climb start steps name) :
    types.Climb start (types.distance start name) name :=
  Nat.sInf_mem (s := {steps | types.Climb start steps name}) ⟨steps, climb⟩

namespace Traversal

variable {walk rest : Traversal types}

/-- The walk gives `names` one after the other, and then ends. -/
inductive Gives : Traversal types → List String → Prop
  | done {walk : Traversal types} (ended : walk.next? = none) : Gives walk []
  | next {walk rest : Traversal types} {name : String} {names : List String}
      (given : walk.next? = some (name, rest)) (gives : Gives rest names) :
      Gives walk (name :: names)

theorem nextFrom_eq_none_iff (seen : Std.ExtTreeSet String) (queue : List String) :
    (nextFrom seen queue : Option (String × Traversal types)) = none ↔
      ∀ name ∈ queue, name ∈ seen := by
  induction queue with
  | nil => simp [nextFrom]
  | cons front queue ih => by_cases passed : front ∈ seen <;> simp [nextFrom, passed, ih]

/-- A step passes over names that were given before, gives the first that was not, and puts its
supertypes last. -/
theorem nextFrom_eq_some_iff (seen : Std.ExtTreeSet String) (queue : List String) :
    nextFrom seen queue = some (name, rest) ↔
      ∃ skipped later, queue = skipped ++ name :: later ∧ (∀ other ∈ skipped, other ∈ seen) ∧
        name ∉ seen ∧ rest = ⟨seen.insert name, later ++ types.above name⟩ := by
  induction queue with
  | nil => simp [nextFrom]
  | cons front queue ih =>
    by_cases passed : front ∈ seen
    · rw [nextFrom, if_pos passed, ih]
      constructor
      · rintro ⟨skipped, later, rfl, before, fresh, rfl⟩
        exact ⟨front :: skipped, later, rfl, List.forall_mem_cons.mpr ⟨passed, before⟩, fresh, rfl⟩
      · rintro ⟨_ | ⟨other, skipped⟩, later, shape, before, fresh, rfl⟩
        · obtain ⟨rfl, -⟩ := List.cons.inj shape
          exact absurd passed fresh
        · obtain ⟨rfl, rfl⟩ := List.cons.inj shape
          exact ⟨skipped, later, rfl, (List.forall_mem_cons.mp before).2, fresh, rfl⟩
    · rw [nextFrom, if_neg passed, Option.some.injEq, Prod.mk.injEq]
      constructor
      · rintro ⟨rfl, rfl⟩
        exact ⟨[], queue, rfl, by simp, passed, rfl⟩
      · rintro ⟨_ | ⟨other, skipped⟩, later, shape, before, -, rfl⟩
        · obtain ⟨rfl, rfl⟩ := List.cons.inj shape
          exact ⟨rfl, rfl⟩
        · obtain ⟨rfl, -⟩ := List.cons.inj shape
          exact absurd (before front List.mem_cons_self) passed

theorem Gives.take_eq (gives : walk.Gives names) (limit : Nat) :
    walk.take limit = names.take limit := by
  induction gives generalizing limit with
  | done ended => cases limit <;> simp [take, ended]
  | next given gives ih => cases limit <;> simp [take, given, ih]

/-- What a walk gives are the names not given before, in the order in which they first occur in its
queue and then among the supertypes of what it gives. -/
theorem Gives.eq_eraseDups (gives : walk.Gives names) :
    names = ((walk.queue ++ names.flatMap types.above).filter (· ∉ walk.seen)).eraseDups := by
  induction gives with
  | @done walk ended =>
    have passed : walk.queue.filter (· ∉ walk.seen) = [] := by
      simpa [List.filter_eq_nil_iff] using (nextFrom_eq_none_iff walk.seen walk.queue).mp ended
    simp only [List.flatMap_nil, List.append_nil, passed, List.eraseDups_nil]
  | @next walk rest name names given gives ih =>
    obtain ⟨skipped, later, queued, before, fresh, rfl⟩ := (nextFrom_eq_some_iff ..).mp given
    have passed : skipped.filter (· ∉ walk.seen) = [] := by
      simpa [List.filter_eq_nil_iff] using before
    have marked (other : String) :
        decide (other ∉ walk.seen.insert name) = (!other == name && decide (other ∉ walk.seen)) := by
      by_cases same : other = name <;> simp [same, Ne.symm]
    simp only [marked, ← List.filter_filter] at ih
    rw [queued, List.append_assoc, List.filter_append, passed, List.nil_append, List.cons_append,
      List.filter_cons_of_pos (by simpa using fresh), List.eraseDups_cons, List.flatMap_cons,
      ← List.append_assoc, ← ih]

theorem Gives.not_mem_seen (gives : walk.Gives names) (given : name ∈ names) :
    name ∉ walk.seen := by
  rw [gives.eq_eraseDups] at given
  simpa using (List.mem_filter.mp (List.mem_eraseDups.mp given)).2

theorem Gives.nodup (gives : walk.Gives names) : names.Nodup := by
  induction gives with
  | done => exact List.nodup_nil
  | @next walk rest name names given gives ih =>
    obtain ⟨skipped, later, -, -, -, rfl⟩ := (nextFrom_eq_some_iff ..).mp given
    rw [List.nodup_cons]
    refine ⟨fun again => gives.not_mem_seen again ?_, ih⟩
    simp

/-- Where a walk stands: ways of `depth` edges lead to `nearer`, ways of one edge more to `farther`,
and no name of the levels before is left. Names given before may be queued again, so the queue is in
the order of the ways that were taken and not of the distances. -/
structure Level (start : String) (depth : Nat) (nearer farther : List String)
    (walk : Traversal types) : Prop where
  queued : walk.queue = nearer ++ farther
  here : ∀ name ∈ nearer, types.Climb start depth name
  beyond : ∀ name ∈ farther, types.Climb start (depth + 1) name
  passed : ∀ steps < depth, ∀ name, types.Climb start steps name → name ∈ walk.seen
  reached : ∀ name, types.Climb start depth name → name ∈ walk.seen ∨ name ∈ nearer
  closed : ∀ name ∈ walk.seen, ∀ parent ∈ types.above name,
    parent ∈ walk.seen ∨ parent ∈ walk.queue

section Level

variable {depth : Nat} {nearer farther : List String} {seen : Std.ExtTreeSet String}
  {queue : List String}

theorem level_traversal (types : Hierarchy) (start : String) :
    (types.traversal start).Level start 0 [start] [] where
  queued := rfl
  here := by simpa using Climb.here
  beyond := by simp
  passed := by simp
  reached name climb := by
    cases climb
    simp
  closed := by simp [traversal]

/-- When a level is used up, the next begins. -/
theorem Level.descend (level : walk.Level start depth [] farther) :
    walk.Level start (depth + 1) farther [] where
  queued := by simpa using level.queued
  here := level.beyond
  beyond := by simp
  passed steps before name climb := by
    rcases Nat.lt_succ_iff_lt_or_eq.mp before with before | rfl
    · exact level.passed steps before name climb
    · simpa using level.reached name climb
  reached name climb := by
    cases climb with
    | @up _ child _ climb edge =>
      have given : child ∈ walk.seen := by simpa using level.reached child climb
      simpa [level.queued] using level.closed child given name edge
  closed := level.closed

theorem Level.skip
    (level : Level start depth (name :: nearer) farther (⟨seen, name :: queue⟩ : Traversal types))
    (given : name ∈ seen) :
    Level start depth nearer farther (⟨seen, queue⟩ : Traversal types) where
  queued := (List.cons.inj level.queued).2
  here := (List.forall_mem_cons.mp level.here).2
  beyond := level.beyond
  passed := level.passed
  reached other climb := by
    rcases level.reached other climb with before | queued
    · exact .inl before
    · rcases List.mem_cons.mp queued with rfl | queued
      · exact .inl given
      · exact .inr queued
  closed child before parent edge := by
    rcases level.closed child before parent edge with seen | queued
    · exact .inl seen
    · rcases List.mem_cons.mp queued with rfl | queued
      · exact .inl given
      · exact .inr queued

theorem Level.visit
    (level : Level start depth (name :: nearer) farther (⟨seen, name :: queue⟩ : Traversal types)) :
    Level start depth nearer (farther ++ types.above name)
      (⟨seen.insert name, queue ++ types.above name⟩ : Traversal types) where
  queued := by
    have tail : queue = nearer ++ farther := (List.cons.inj level.queued).2
    simp [tail]
  here := (List.forall_mem_cons.mp level.here).2
  beyond parent member := by
    rcases List.mem_append.mp member with queued | edge
    · exact level.beyond parent queued
    · exact .up (level.here name List.mem_cons_self) edge
  passed steps before other climb := by
    simp [level.passed steps before other climb]
  reached other climb := by
    rcases level.reached other climb with before | queued
    · simp [before]
    · rcases List.mem_cons.mp queued with rfl | queued <;> simp [*]
  closed child before parent edge := by
    rcases Std.ExtTreeSet.mem_insert.mp before with same | before
    · obtain rfl := Std.LawfulEqCmp.eq_of_compare same
      simp [edge]
    · rcases level.closed child before parent edge with given | queued
      · simp [given]
      · rcases List.mem_cons.mp queued with rfl | queued <;> simp [*]

/-- The front of the queue is on the level or begins the next. -/
theorem Level.align
    (level : Level start depth nearer farther (⟨seen, name :: queue⟩ : Traversal types)) :
    ∃ depth' nearer' farther', depth ≤ depth' ∧
      Level start depth' (name :: nearer') farther' (⟨seen, name :: queue⟩ : Traversal types) := by
  rcases nearer with _ | ⟨front, nearer⟩
  · obtain rfl : name :: queue = farther := by simpa using level.queued
    exact ⟨depth + 1, queue, [], Nat.le_succ depth, level.descend⟩
  · obtain ⟨rfl, -⟩ := List.cons.inj level.queued
    exact ⟨depth, nearer, farther, Nat.le_refl depth, level⟩

/-- Passing over names that were given before may use up levels. -/
theorem Level.front {skipped : List String}
    (level : Level start depth nearer farther (⟨seen, skipped ++ name :: queue⟩ : Traversal types))
    (before : ∀ other ∈ skipped, other ∈ seen) :
    ∃ depth' nearer' farther', depth ≤ depth' ∧
      Level start depth' (name :: nearer') farther' (⟨seen, name :: queue⟩ : Traversal types) := by
  induction skipped generalizing depth nearer farther with
  | nil => exact level.align
  | cons other skipped ih =>
    obtain ⟨given, before⟩ := List.forall_mem_cons.mp before
    obtain ⟨depth', nearer', farther', deeper, aligned⟩ := level.align
    obtain ⟨depth'', nearer'', farther'', deeper', front⟩ := ih (aligned.skip given) before
    exact ⟨depth'', nearer'', farther'', deeper.trans deeper', front⟩

/-- A name at the front that was not given before has no way that is shorter. -/
theorem Level.distance_eq (level : walk.Level start depth (name :: nearer) farther)
    (fresh : name ∉ walk.seen) : types.distance start name = depth := by
  have climb := level.here name List.mem_cons_self
  apply Nat.le_antisymm climb.distance_le
  apply Nat.le_of_not_lt
  intro shorter
  exact fresh (level.passed _ shorter name climb.shortest)

theorem Level.next (level : walk.Level start depth nearer farther)
    (given : walk.next? = some (name, rest)) :
    ∃ depth' nearer' farther', depth ≤ depth' ∧ types.Climb start depth' name ∧
      types.distance start name = depth' ∧ rest.Level start depth' nearer' farther' := by
  obtain ⟨seen, queue⟩ := walk
  obtain ⟨skipped, later, rfl, before, fresh, rfl⟩ := (nextFrom_eq_some_iff ..).mp given
  obtain ⟨depth', nearer', farther', deeper, front⟩ := level.front before
  exact ⟨depth', nearer', _, deeper, front.here name List.mem_cons_self, front.distance_eq fresh,
    front.visit⟩

/-- From a level on, a walk gives names that a way leads to, none nearer than the level and none
nearer than the one before. -/
theorem Gives.ordered (gives : walk.Gives names) (level : walk.Level start depth nearer farther) :
    (∀ name ∈ names, depth ≤ types.distance start name ∧ ∃ steps, types.Climb start steps name) ∧
      names.Pairwise fun near far => types.distance start near ≤ types.distance start far := by
  induction gives generalizing depth nearer farther with
  | done => simp
  | @next walk rest name names given gives ih =>
    obtain ⟨depth', nearer', farther', deeper, climb, shortest, level'⟩ := level.next given
    obtain ⟨others, ordered⟩ := ih level'
    constructor
    · intro other member
      rcases List.mem_cons.mp member with rfl | member
      · exact ⟨shortest ▸ deeper, depth', climb⟩
      · exact ⟨deeper.trans (others other member).1, (others other member).2⟩
    · apply List.pairwise_cons.mpr
      refine ⟨?_, ordered⟩
      intro other member
      exact shortest ▸ (others other member).1

end Level

theorem Gives.cons_of_mem {seen : Std.ExtTreeSet String} {queue : List String}
    (gives : (⟨seen, queue⟩ : Traversal types).Gives names) (given : name ∈ seen) :
    (⟨seen, name :: queue⟩ : Traversal types).Gives names := by
  have same : (⟨seen, name :: queue⟩ : Traversal types).next? =
      (⟨seen, queue⟩ : Traversal types).next? := by simp [next?, nextFrom, given]
  cases gives with
  | done ended => exact .done (same.trans ended)
  | next step gives => exact .next (same.trans step) gives

theorem Gives.cons_of_not_mem {seen : Std.ExtTreeSet String} {queue : List String}
    (gives : (⟨seen.insert name, queue ++ types.above name⟩ : Traversal types).Gives names)
    (fresh : name ∉ seen) :
    (⟨seen, name :: queue⟩ : Traversal types).Gives (name :: names) := by
  refine .next ?_ gives
  simp [next?, nextFrom, fresh]

theorem above_of_agree {pending : Std.ExtTreeMap String (List String)}
    {seen : Std.ExtTreeSet String}
    (agree : ∀ name ∉ seen, pending[name]? = types.parents[name]?) (fresh : name ∉ seen) :
    types.above name = pending[name]?.getD [] := by
  rw [above, Std.ExtTreeMap.getD_eq_getD_getElem?, agree name fresh]

/-- The walk that is taken at once gives what the walk taken name by name does: off the names seen,
what is pending are the supertypes. -/
theorem exists_gives_walk (pending : Std.ExtTreeMap String (List String))
    (seen : Std.ExtTreeSet String) (done queue : List String)
    (agree : ∀ name ∉ seen, pending[name]? = types.parents[name]?) :
    ∃ names, (⟨seen, queue⟩ : Traversal types).Gives names ∧
      Hierarchy.walk pending seen done queue = done.reverse ++ names := by
  fun_induction Hierarchy.walk pending seen done queue with
  | case1 pending seen done => exact ⟨[], .done rfl, by simp⟩
  | case2 pending seen done name queue given ih =>
    obtain ⟨names, gives, walked⟩ := ih agree
    exact ⟨names, gives.cons_of_mem given, walked⟩
  | case3 pending seen done name queue fresh present ih =>
    have above : types.above name = pending[name] := by
      simp [above_of_agree agree fresh, present]
    obtain ⟨names, gives, walked⟩ := ih (by
      intro other unseen
      simp only [Std.ExtTreeSet.mem_insert, not_or] at unseen
      rw [Std.ExtTreeMap.getElem?_erase, if_neg unseen.1, agree other unseen.2])
    rw [← above] at gives
    exact ⟨name :: names, gives.cons_of_not_mem fresh, by simp [walked]⟩
  | case4 pending seen done name queue fresh absent ih =>
    have above : types.above name = [] := by
      simp [above_of_agree agree fresh, absent]
    obtain ⟨names, gives, walked⟩ := ih (by
      intro other unseen
      simp only [Std.ExtTreeSet.mem_insert, not_or] at unseen
      exact agree other unseen.2)
    rw [← List.append_nil queue, ← above] at gives
    exact ⟨name :: names, gives.cons_of_not_mem fresh, by simp [walked]⟩

end Traversal

theorem gives_ancestors (types : Hierarchy) (start : String) :
    (types.traversal start).Gives (types.ancestors start) := by
  obtain ⟨names, gives, walked⟩ :=
    Traversal.exists_gives_walk types.parents ∅ [] [start] fun _ _ => rfl
  rw [ancestors, walked, List.reverse_nil, List.nil_append]
  exact gives

/-- `names` are those that edges lead to from `start`, each once, nearest first, and on each level
in the order of the names they are declared by. -/
structure BreadthFirst (types : Hierarchy) (start : String) (names : List String) : Prop where
  first : names.head? = some start
  distinct : names.Nodup
  complete : ∀ name, name ∈ names ↔ ∃ steps, types.Climb start steps name
  nearestFirst : names.Pairwise fun near far =>
    types.distance start near ≤ types.distance start far
  firstOccurrences : names = (start :: names.flatMap types.above).eraseDups

theorem Traversal.Gives.breadthFirst (gives : (types.traversal start).Gives names) :
    BreadthFirst types start names := by
  have occurrences : names = (start :: names.flatMap types.above).eraseDups := by
    simpa [traversal] using gives.eq_eraseDups
  obtain ⟨climbs, ordered⟩ := gives.ordered (Traversal.level_traversal types start)
  refine ⟨?_, gives.nodup, ?_, ordered, occurrences⟩
  · rw [occurrences, List.eraseDups_cons, List.head?_cons]
  · intro name
    refine ⟨fun member => (climbs name member).2, ?_⟩
    rintro ⟨steps, climb⟩
    induction climb with
    | here =>
      rw [occurrences, List.mem_eraseDups]
      exact List.mem_cons_self
    | @up _ child _ _ edge ih =>
      rw [occurrences, List.mem_eraseDups]
      exact List.mem_cons_of_mem _ (List.mem_flatMap.mpr ⟨child, ih, edge⟩)

theorem breadthFirst_ancestors (types : Hierarchy) (start : String) :
    types.BreadthFirst start (types.ancestors start) :=
  (types.gives_ancestors start).breadthFirst

theorem BreadthFirst.start_mem (walk : types.BreadthFirst start names) : start ∈ names :=
  (walk.complete start).mpr ⟨0, .here⟩

theorem getElem?_foldl_insert (classes : List ClassFile)
    (parents : Std.ExtTreeMap String (List String)) (name : String) :
    (classes.foldl (fun parents cls => parents.insert cls.name cls.supertypes) parents)[name]? =
      ((classes.reverse.find? (·.name = name)).map ClassFile.supertypes).or parents[name]? := by
  induction classes generalizing parents with
  | nil => simp
  | cons cls classes ih =>
    rw [List.foldl_cons, ih, Std.ExtTreeMap.getElem?_insert, List.reverse_cons, List.find?_append]
    by_cases same : cls.name = name <;> cases classes.reverse.find? (·.name = name) <;> simp [same]

/-- The supertypes of a name are those of the last class of that name. -/
theorem above_ofClasses (classes : List ClassFile) (name : String) :
    (ofClasses classes).above name =
      ((classes.reverse.find? (·.name = name)).map ClassFile.supertypes).getD [] := by
  rw [above, Std.ExtTreeMap.getD_eq_getD_getElem?, ofClasses, getElem?_foldl_insert]
  simp

/-- The walk from any name over any classes ends, is breadth first over the supertypes that the last
class of each name declares, and gives its first names alike when it is not taken to its end. -/
theorem ancestors_breadth_first (classes : List ClassFile) (start : String) :
    let types := ofClasses classes
    (∀ name, types.above name =
      ((classes.reverse.find? (·.name = name)).map ClassFile.supertypes).getD []) ∧
    (types.traversal start).Gives (types.ancestors start) ∧
    BreadthFirst types start (types.ancestors start) ∧
    ∀ limit, (types.traversal start).take limit = (types.ancestors start).take limit := by
  intro types
  have gives := types.gives_ancestors start
  exact ⟨above_ofClasses classes, gives, types.breadthFirst_ancestors start, gives.take_eq⟩

-- a diamond whose top leads back to its bottom
example :
    ((ofClasses [⟨0, 52, 0x21, "Bottom", some "Left", ["Right"], []⟩,
        ⟨0, 52, 0x21, "Left", some "Top", [], []⟩, ⟨0, 52, 0x21, "Right", some "Top", ["Side"], []⟩,
        ⟨0, 52, 0x21, "Top", some "Bottom", [], []⟩]).traversal "Bottom").take 9 =
      ["Bottom", "Left", "Right", "Top", "Side"] := by decide

end JarCensus.Hierarchy
