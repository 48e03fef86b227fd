import JarCensus.Proofs.Counting
import JarCensus.Proofs.Resolution
import JarCensus.Proofs.Signature
import Mathlib.Algebra.BigOperators.Group.Finset.Piecewise
import Mathlib.Algebra.Order.BigOperators.Group.Finset

/-! Counting through supertypes refines counting by the owners that calls name. It succeeds on the
same classes and takes no call away from a known signature; what it adds are calls of signatures
that are not known. -/
namespace JarCensus

variable {types : Hierarchy} {known : SignatureSet} {call : Invocation}

/-- The signature that the call names is not known. -/
def Invocation.isUnknown (known : SignatureSet) (call : Invocation) : Bool :=
  call.signature.toOption.any fun signature => signature ∉ known

theorem resolve_exact (known : SignatureSet) (call : Invocation) :
    Resolver.exact.resolve known call = call.signature := by
  rw [Resolver.resolve]
  cases call.signature <;> rfl

theorem resolve_hierarchy_of_mem (types : Hierarchy) {named : Signature}
    (names : call.signature = .ok named) (indexed : named ∈ known) :
    (Resolver.hierarchy types).resolve known call = .ok named := by
  simp [Resolver.resolve, names, indexed, bind, Except.bind, pure, Except.pure]

theorem exists_firstKnown (known : SignatureSet) (fallback : Signature) {owners : List String}
    (shown : ∀ owner ∈ owners, ∃ candidate,
      Signature.canonical owner call.name call.descriptor = .ok candidate) :
    ∃ target, Resolver.firstKnown known call.name call.descriptor fallback owners =
      .ok target := by
  induction owners with
  | nil => exact ⟨fallback, rfl⟩
  | cons owner owners ih =>
    obtain ⟨⟨candidate, first⟩, others⟩ := List.forall_mem_cons.mp shown
    by_cases indexed : candidate ∈ known
    · exact ⟨candidate, (firstKnown_cons_eq_ok_iff ..).mpr (.inl ⟨indexed, first⟩)⟩
    · obtain ⟨target, found⟩ := ih others
      refine ⟨target, (firstKnown_cons_eq_ok_iff ..).mpr (.inr ⟨?_, found⟩)⟩
      exact ⟨candidate, indexed, first⟩

/-- Whether a method has a signature does not depend on its owner, as long as owners have no `(`. -/
theorem exists_resolve_hierarchy_iff
    (bare : ∀ owner ∈ types.ancestors call.owner, '(' ∉ owner.toList) :
    (∃ target, (Resolver.hierarchy types).resolve known call = .ok target) ↔
      ∃ named, call.signature = .ok named := by
  simp only [resolve_hierarchy_eq, bind_eq_ok_iff]
  constructor
  · rintro ⟨target, named, names, -⟩
    exact ⟨named, names⟩
  · rintro ⟨named, names⟩
    have own := bare call.owner (types.breadthFirst_ancestors call.owner).start_mem
    have shown : ∀ owner ∈ types.ancestors call.owner, ∃ candidate,
        Signature.canonical owner call.name call.descriptor = .ok candidate := by
      intro owner member
      rw [Signature.exists_canonical_iff _ _ (bare owner member),
        ← Signature.exists_canonical_iff _ _ own]
      exact ⟨named, names⟩
    obtain ⟨target, found⟩ := exists_firstKnown known named shown
    exact ⟨target, named, names, found⟩

theorem Hierarchy.not_mem_of_climb {classes : List ClassFile} {c : Char}
    (supertypes : ∀ cls ∈ classes, ∀ name ∈ cls.supertypes, c ∉ name.toList) {start name : String}
    (own : c ∉ start.toList) {steps : Nat} (climb : (ofClasses classes).Climb start steps name) :
    c ∉ name.toList := by
  cases climb with
  | here => exact own
  | @up _ child _ _ edge =>
    rw [above_ofClasses] at edge
    cases found : classes.reverse.find? (·.name = child) with
    | none => simp [found] at edge
    | some cls =>
      rw [found, Option.map_some, Option.getD_some] at edge
      exact supertypes cls (List.mem_reverse.mp (List.mem_of_find?_eq_some found)) name edge

/-- How many calls that name an unknown signature are counted as `signature`. -/
def movedCount (classes : List ClassFile) (known : SignatureSet) (resolver : Resolver)
    (signature : Signature) : Nat :=
  (invocations classes).countP fun call =>
    call.isUnknown known && decide ((resolver.resolve known call).toOption = some signature)

/-- A call is counted as the known signature that it names, or names none that is known. -/
theorem resolve_hierarchy_eq_ok_iff (types : Hierarchy) {signature : Signature}
    (indexed : signature ∈ known) :
    (Resolver.hierarchy types).resolve known call = .ok signature ∧ call.isUnknown known = false ↔
      Resolver.exact.resolve known call = .ok signature := by
  rw [resolve_exact, Invocation.isUnknown]
  cases names : call.signature with
  | error e => simp [Resolver.resolve, names, bind, Except.bind]
  | ok named =>
    by_cases other : named ∈ known
    · simp [resolve_hierarchy_of_mem types names other, Except.toOption, other]
    · have apart : named ≠ signature := by
        rintro rfl
        exact other indexed
      simp [Except.toOption, other, apart]

/-- A known signature keeps the calls that name it, and is given calls that name none. -/
theorem callCount_hierarchy (classes : List ClassFile) (types : Hierarchy) {signature : Signature}
    (indexed : signature ∈ known) :
    callCount classes known (.hierarchy types) signature =
      callCount classes known .exact signature +
        movedCount classes known (.hierarchy types) signature := by
  have kept : ((invocations classes).filter fun call => !call.isUnknown known).countP
        (fun call => ((Resolver.hierarchy types).resolve known call).toOption = some signature) =
      callCount classes known .exact signature := by
    rw [List.countP_filter, callCount]
    apply List.countP_congr
    intro call member
    simpa [toOption_eq_some_iff] using resolve_hierarchy_eq_ok_iff types indexed
  have moved : ((invocations classes).filter fun call => !!call.isUnknown known).countP
        (fun call => ((Resolver.hierarchy types).resolve known call).toOption = some signature) =
      movedCount classes known (.hierarchy types) signature := by
    rw [List.countP_filter, movedCount]
    simp only [Bool.not_not, Bool.and_comm]
  rw [callCount, List.countP_eq_countP_filter_add (invocations classes) _ fun call =>
    !call.isUnknown known, kept, moved]

theorem sum_movedCount_le (classes : List ClassFile) (known : SignatureSet) (resolver : Resolver)
    (signatures : Finset Signature) :
    ∑ signature ∈ signatures, movedCount classes known resolver signature ≤
      (invocations classes).countP (·.isUnknown known) := by
  simp only [movedCount]
  induction invocations classes with
  | nil => simp
  | cons call calls ih =>
    simp only [List.countP_cons, Finset.sum_add_distrib]
    apply Nat.add_le_add ih
    cases call.isUnknown known with
    | false => simp
    | true =>
      cases (resolver.resolve known call).toOption with
      | none => simp
      | some target =>
        simp only [Bool.true_and, Option.some.injEq, decide_eq_true_eq, Finset.sum_ite_eq]
        split <;> simp

theorem resolves_hierarchy_iff {classes declaring : List ClassFile} (known : SignatureSet)
    (owners : ∀ call ∈ invocations classes, '(' ∉ call.owner.toList)
    (supertypes : ∀ cls ∈ declaring, ∀ name ∈ cls.supertypes, '(' ∉ name.toList) :
    Resolves classes known (.hierarchy (.ofClasses declaring)) ↔
      Resolves classes known .exact := by
  refine forall₂_congr fun call member => ?_
  have bare : ∀ owner ∈ (Hierarchy.ofClasses declaring).ancestors call.owner,
      '(' ∉ owner.toList := by
    intro owner above
    have walk := (Hierarchy.ofClasses declaring).breadthFirst_ancestors call.owner
    obtain ⟨steps, climb⟩ := (walk.complete owner).mp above
    exact Hierarchy.not_mem_of_climb supertypes (owners call member) climb
  rw [exists_resolve_hierarchy_iff bare]
  simp only [resolve_exact]

/-- Where no name of an owner or a supertype has a `(`, calls can be counted through supertypes
exactly if they can be by the owners they name. No signature then has fewer calls, and however many
signatures are looked at, those they have more of are no more than name an unknown one. -/
theorem countUsage_hierarchy_refines_exact (classes declaring : List ClassFile)
    (own known : SignatureSet) (owners : ∀ call ∈ invocations classes, '(' ∉ call.owner.toList)
    (supertypes : ∀ cls ∈ declaring, ∀ name ∈ cls.supertypes, '(' ∉ name.toList) :
    let resolver := Resolver.hierarchy (.ofClasses declaring)
    ((∃ counts, countUsage classes own known resolver = .ok counts) ↔
      ∃ counts, countUsage classes own known .exact = .ok counts) ∧
    ∀ through named, countUsage classes own known resolver = .ok through →
      countUsage classes own known .exact = .ok named →
      (∀ signature, named.getD signature 0 ≤ through.getD signature 0) ∧
      ∀ signatures : Finset Signature,
        ∑ signature ∈ signatures, (through.getD signature 0 - named.getD signature 0) ≤
          (invocations classes).countP (·.isUnknown known) := by
  intro resolver
  refine ⟨?_, ?_⟩
  · rw [exists_countUsage_iff, exists_countUsage_iff]
    exact resolves_hierarchy_iff known owners supertypes
  · intro through named countedThrough countedNamed
    have talliedThrough := ((countUsage_eq_ok_iff ..).mp countedThrough).2
    have talliedNamed := ((countUsage_eq_ok_iff ..).mp countedNamed).2
    have gains (signature : Signature) :
        named.getD signature 0 ≤ through.getD signature 0 ∧
          through.getD signature 0 - named.getD signature 0 ≤
            movedCount classes known resolver signature := by
      rw [talliedThrough.getD_eq, talliedNamed.getD_eq]
      split
      next kept =>
        have moved : callCount classes known resolver signature =
            callCount classes known .exact signature +
              movedCount classes known resolver signature :=
          callCount_hierarchy classes (.ofClasses declaring) kept.1
        omega
      next => simp
    refine ⟨fun signature => (gains signature).1, fun signatures => ?_⟩
    calc ∑ signature ∈ signatures, (through.getD signature 0 - named.getD signature 0)
        ≤ ∑ signature ∈ signatures, movedCount classes known resolver signature :=
          Finset.sum_le_sum fun signature _ => (gains signature).2
      _ ≤ (invocations classes).countP (·.isUnknown known) :=
          sum_movedCount_le classes known resolver signatures

/-- A class that calls a method both by its owner and by a subclass that inherits it. -/
def inheritingClasses : List ClassFile :=
  [⟨0, 52, 0x21, "app.MyUtil", some "lib.Util", [], []⟩,
    ⟨0, 52, 0x21, "app.Main", none, [], [⟨"app.Main", 0x09, "run", "()V",
      [.invocation ⟨.static, "lib.Util", "add", "(II)I"⟩,
        .invocation ⟨.static, "app.MyUtil", "add", "(II)I"⟩]⟩]⟩]

theorem resolve_inheriting :
    (Resolver.hierarchy (.ofClasses inheritingClasses)).resolve {"lib.Util#add(int, int)"}
      ⟨.static, "app.MyUtil", "add", "(II)I"⟩ = .ok "lib.Util#add(int, int)" := by
  have named : Invocation.signature ⟨.static, "app.MyUtil", "add", "(II)I"⟩ =
      .ok "app.MyUtil#add(int, int)" := rfl
  have above : Signature.canonical "lib.Util" "add" "(II)I" = .ok "lib.Util#add(int, int)" := rfl
  have ancestors : (Hierarchy.ofClasses inheritingClasses).ancestors "app.MyUtil" =
      ["app.MyUtil", "lib.Util"] := by
    simp [inheritingClasses, Hierarchy.ofClasses, Hierarchy.ancestors, Hierarchy.walk,
      Std.ExtTreeMap.getElem_insert, ClassFile.supertypes]
  simp [Resolver.resolve, Resolver.firstKnown, named, ancestors, above, bind, Except.bind, pure,
    Except.pure]

/-- The inherited call is the one more that counting through supertypes finds. -/
theorem countUsage_hierarchy_counts_inherited :
    (∀ call ∈ invocations inheritingClasses, '(' ∉ call.owner.toList) ∧
    (∀ cls ∈ inheritingClasses, ∀ name ∈ cls.supertypes, '(' ∉ name.toList) ∧
    ∃ through named : UsageCount,
      countUsage inheritingClasses ∅ {"lib.Util#add(int, int)"}
        (.hierarchy (.ofClasses inheritingClasses)) = .ok through ∧
      countUsage inheritingClasses ∅ {"lib.Util#add(int, int)"} .exact = .ok named ∧
      named.getD "lib.Util#add(int, int)" 0 = 1 ∧ through.getD "lib.Util#add(int, int)" 0 = 2 ∧
      (∀ signature, named.getD signature 0 ≤ through.getD signature 0) ∧
      ∑ signature ∈ {"lib.Util#add(int, int)"},
        (through.getD signature 0 - named.getD signature 0) ≤ 1 := by
  have owners : ∀ call ∈ invocations inheritingClasses, '(' ∉ call.owner.toList := by decide
  have supertypes : ∀ cls ∈ inheritingClasses, ∀ name ∈ cls.supertypes, '(' ∉ name.toList := by
    decide
  have countedNamed : countUsage inheritingClasses ∅ {"lib.Util#add(int, int)"} .exact =
      .ok {("lib.Util#add(int, int)", 1)} := rfl
  have countedThrough : countUsage inheritingClasses ∅ {"lib.Util#add(int, int)"}
      (.hierarchy (.ofClasses inheritingClasses)) = .ok {("lib.Util#add(int, int)", 2)} := by
    have sites : callSites inheritingClasses =
        [⟨"app.Main", "run", ⟨.static, "lib.Util", "add", "(II)I"⟩⟩,
          ⟨"app.Main", "run", ⟨.static, "app.MyUtil", "add", "(II)I"⟩⟩] := rfl
    have direct : (Resolver.hierarchy (.ofClasses inheritingClasses)).resolve
        {"lib.Util#add(int, int)"} ⟨.static, "lib.Util", "add", "(II)I"⟩ =
          .ok "lib.Util#add(int, int)" := resolve_hierarchy_of_mem _ rfl (by decide)
    simp only [countUsage, sites, List.foldlM_cons, List.foldlM_nil, bind_eq_ok_iff,
      target_eq_ok_iff]
    exact ⟨_, ⟨_, direct, rfl⟩, _, ⟨_, resolve_inheriting, rfl⟩, rfl⟩
  obtain ⟨grows, gained⟩ := (countUsage_hierarchy_refines_exact inheritingClasses inheritingClasses
    ∅ {"lib.Util#add(int, int)"} owners supertypes).2 _ _ countedThrough countedNamed
  refine ⟨owners, supertypes, _, _, countedThrough, countedNamed, rfl, rfl, grows, ?_⟩
  have unknown : (invocations inheritingClasses).countP
      (·.isUnknown {"lib.Util#add(int, int)"}) = 1 := by decide
  exact unknown ▸ gained _

end JarCensus
