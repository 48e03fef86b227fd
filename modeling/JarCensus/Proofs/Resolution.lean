import JarCensus.Proofs.Ancestry
import JarCensus.Proofs.Results
import JarCensus.Resolution

/-! Which owner a call is counted for. The walk through the supertypes of the owner that a call names
is breadth first, so the first known signature is the nearest one. -/
namespace JarCensus

variable {types : Hierarchy} {known : SignatureSet} {call : Invocation}

/-- The method that `call` names has a signature over `owner`, and it is not known. -/
def PassesOver (known : SignatureSet) (call : Invocation) (owner : String) : Prop :=
  ∃ candidate ∉ known, Signature.canonical owner call.name call.descriptor = .ok candidate

theorem firstKnown_cons_eq_ok_iff (known : SignatureSet) (call : Invocation)
    (fallback signature : Signature) (owner : String) (owners : List String) :
    Resolver.firstKnown known call.name call.descriptor fallback (owner :: owners) =
        .ok signature ↔
      (signature ∈ known ∧ Signature.canonical owner call.name call.descriptor = .ok signature) ∨
      (PassesOver known call owner ∧
        Resolver.firstKnown known call.name call.descriptor fallback owners = .ok signature) := by
  cases named : Signature.canonical owner call.name call.descriptor with
  | error e => simp [Resolver.firstKnown, PassesOver, named, bind, Except.bind]
  | ok candidate =>
    by_cases indexed : candidate ∈ known
    · simp only [Resolver.firstKnown, PassesOver, named, bind, Except.bind, indexed, if_pos, pure,
        Except.pure, Except.ok.injEq]
      grind
    · simp only [Resolver.firstKnown, PassesOver, named, bind, Except.bind, indexed, Except.ok.injEq]
      grind

/-- A search stops at the first owner with a known signature. Those before it were passed over, and
so were all if there is none. -/
theorem firstKnown_eq_ok_iff (known : SignatureSet) (call : Invocation)
    (fallback signature : Signature) (owners : List String) :
    Resolver.firstKnown known call.name call.descriptor fallback owners = .ok signature ↔
      (signature ∈ known ∧ ∃ earlier owner later, owners = earlier ++ owner :: later ∧
        Signature.canonical owner call.name call.descriptor = .ok signature ∧
        ∀ other ∈ earlier, PassesOver known call other) ∨
      (signature = fallback ∧ ∀ other ∈ owners, PassesOver known call other) := by
  induction owners with
  | nil => simp [Resolver.firstKnown, eq_comm]
  | cons owner owners ih =>
    rw [firstKnown_cons_eq_ok_iff, ih]
    constructor
    · rintro (⟨indexed, named⟩ | ⟨passed, ⟨indexed, earlier, other, later, rfl, named, before⟩ |
        ⟨rfl, all⟩⟩)
      · exact .inl ⟨indexed, [], owner, owners, rfl, named, by simp⟩
      · exact .inl ⟨indexed, owner :: earlier, other, later, rfl, named,
          List.forall_mem_cons.mpr ⟨passed, before⟩⟩
      · exact .inr ⟨rfl, List.forall_mem_cons.mpr ⟨passed, all⟩⟩
    · rintro (⟨indexed, earlier, other, later, shape, named, before⟩ | ⟨rfl, all⟩)
      · rcases earlier with _ | ⟨first, earlier⟩
        · obtain ⟨rfl, rfl⟩ := List.cons.inj shape
          exact .inl ⟨indexed, named⟩
        · obtain ⟨rfl, rfl⟩ := List.cons.inj shape
          obtain ⟨passed, before⟩ := List.forall_mem_cons.mp before
          exact .inr ⟨passed, .inl ⟨indexed, earlier, other, later, rfl, named, before⟩⟩
      · obtain ⟨passed, all⟩ := List.forall_mem_cons.mp all
        exact .inr ⟨passed, .inr ⟨rfl, all⟩⟩

/-- The owner that a call names is the first in its own ancestry, so looking there first is one
search through all of it. -/
theorem resolve_hierarchy_eq (types : Hierarchy) (known : SignatureSet) (call : Invocation) :
    (Resolver.hierarchy types).resolve known call = call.signature >>= fun own =>
      Resolver.firstKnown known call.name call.descriptor own (types.ancestors call.owner) := by
  obtain ⟨later, shape⟩ : ∃ later, types.ancestors call.owner = call.owner :: later :=
    List.head?_eq_some_iff.mp (types.breadthFirst_ancestors call.owner).first
  cases named : call.signature with
  | error e => rw [Resolver.resolve, named]; rfl
  | ok own =>
    have first : Signature.canonical call.owner call.name call.descriptor = .ok own := named
    simp only [Resolver.resolve, Resolver.firstKnown, named, first, shape, List.drop_one,
      List.tail_cons, bind, Except.bind]

theorem Hierarchy.BreadthFirst.mem_of_nearer {start owner other : String}
    {earlier later : List String} (walk : types.BreadthFirst start (earlier ++ owner :: later))
    {steps : Nat} (climb : types.Climb start steps other)
    (nearer : steps < types.distance start owner) : other ∈ earlier := by
  have given : other ∈ earlier ++ owner :: later := (walk.complete other).mpr ⟨steps, climb⟩
  rcases List.mem_append.mp given with before | after
  · exact before
  · have ordered := (List.pairwise_append.mp walk.nearestFirst).2.1
    have least : types.distance start owner ≤ types.distance start other := by
      rcases List.mem_cons.mp after with rfl | after
      · exact Nat.le_refl _
      · exact (List.pairwise_cons.mp ordered).1 other after
    have shortest := climb.distance_le
    omega

/-- A call is counted as a known signature exactly if that is the one of the first owner of its
ancestry that has a known one; owners that are nearer were passed over too. It is counted as an
unknown signature exactly if that is its own and all owners were passed over. -/
theorem resolve_finds_nearest_known (classes : List ClassFile) (known : SignatureSet)
    (call : Invocation) (signature : Signature) :
    let types := Hierarchy.ofClasses classes
    (Resolver.hierarchy types).resolve known call = .ok signature ↔
      (signature ∈ known ∧ ∃ earlier owner later,
        types.ancestors call.owner = earlier ++ owner :: later ∧
        Signature.canonical owner call.name call.descriptor = .ok signature ∧
        (∀ other ∈ earlier, PassesOver known call other) ∧
        ∀ other steps, types.Climb call.owner steps other →
          steps < types.distance call.owner owner → PassesOver known call other) ∨
      (signature ∉ known ∧ call.signature = .ok signature ∧
        ∀ other ∈ types.ancestors call.owner, PassesOver known call other) := by
  intro types
  have walk := types.breadthFirst_ancestors call.owner
  rw [resolve_hierarchy_eq, bind_eq_ok_iff]
  simp only [firstKnown_eq_ok_iff]
  constructor
  · rintro ⟨own, named, ⟨indexed, earlier, owner, later, shape, found, before⟩ | ⟨rfl, all⟩⟩
    · refine .inl ⟨indexed, earlier, owner, later, shape, found, before, ?_⟩
      intro other steps climb nearer
      rw [shape] at walk
      exact before other (walk.mem_of_nearer climb nearer)
    · refine .inr ⟨?_, named, all⟩
      obtain ⟨candidate, unknown, again⟩ := all call.owner walk.start_mem
      obtain rfl : candidate = signature := Except.ok.inj (again.symm.trans named)
      exact unknown
  · rintro (⟨indexed, earlier, owner, later, shape, found, before, -⟩ | ⟨-, named, all⟩)
    · -- the owner that the call names is the first of the walk, so it was found or passed over
      have first : (earlier ++ owner :: later).head? = some call.owner := shape ▸ walk.first
      have named : ∃ own, call.signature = .ok own := by
        rcases earlier with _ | ⟨front, earlier⟩
        · obtain rfl : owner = call.owner := by simpa using first
          exact ⟨signature, found⟩
        · obtain rfl : front = call.owner := by simpa using first
          obtain ⟨candidate, -, named⟩ := before call.owner List.mem_cons_self
          exact ⟨candidate, named⟩
      obtain ⟨own, named⟩ := named
      exact ⟨own, named, .inl ⟨indexed, earlier, owner, later, shape, found, before⟩⟩
    · exact ⟨signature, named, .inr ⟨rfl, all⟩⟩

end JarCensus
