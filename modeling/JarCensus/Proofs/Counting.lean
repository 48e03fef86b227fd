import JarCensus.Proofs.Results
import JarCensus.UsageCount

/-! What a count holds. Counting succeeds exactly if every call is resolved, and then each known
signature that is not the archive's own has as many entries as calls were resolved to it. -/
namespace JarCensus

/-- The calls of `classes`, wherever they stand. -/
def invocations (classes : List ClassFile) : List Invocation :=
  classes.flatMap fun cls => cls.methods.flatMap Method.invocations

/-- How many calls of `classes` are counted as `signature`. -/
def callCount (classes : List ClassFile) (known : SignatureSet) (resolver : Resolver)
    (signature : Signature) : Nat :=
  (invocations classes).countP fun call =>
    (resolver.resolve known call).toOption = some signature

/-- Every call of `classes` is resolved. -/
def Resolves (classes : List ClassFile) (known : SignatureSet) (resolver : Resolver) : Prop :=
  ∀ call ∈ invocations classes, ∃ target, resolver.resolve known call = .ok target

/-- `counts` has the calls of each known signature that is not among `own`, and nothing else. -/
def Tallies (own known : SignatureSet) (calls : Signature → Nat) (counts : UsageCount) : Prop :=
  ∀ signature, counts[signature]? =
    if signature ∈ known ∧ signature ∉ own ∧ 0 < calls signature then some (calls signature)
    else none

theorem map_call_callSites (classes : List ClassFile) :
    (callSites classes).map CallSite.call = invocations classes := by
  simp [callSites, invocations, List.map_flatMap, Function.comp_def]

theorem target_eq_ok_iff (resolver : Resolver) (known : SignatureSet) (site : CallSite)
    (target : Signature) :
    site.target resolver known = .ok target ↔ resolver.resolve known site.call = .ok target :=
  formatDuring_eq_ok_iff _ _ _

theorem callCount_pos_iff (classes : List ClassFile) (known : SignatureSet) (resolver : Resolver)
    (signature : Signature) :
    0 < callCount classes known resolver signature ↔
      ∃ call ∈ invocations classes, resolver.resolve known call = .ok signature := by
  simp only [callCount, List.countP_pos_iff, decide_eq_true_eq, toOption_eq_some_iff]

section Tallies

variable {own known : SignatureSet} {calls calls' : Signature → Nat} {counts counts' : UsageCount}

theorem Tallies.unique (tallied : Tallies own known calls counts)
    (tallied' : Tallies own known calls counts') : counts = counts' := by
  apply Std.ExtTreeMap.ext_getElem?
  intro signature
  rw [tallied signature, tallied' signature]

theorem Tallies.mem_iff (tallied : Tallies own known calls counts) (signature : Signature) :
    signature ∈ counts ↔ signature ∈ known ∧ signature ∉ own ∧ 0 < calls signature := by
  rw [← Std.ExtTreeMap.isSome_getElem?_iff_mem, tallied signature]
  split <;> simp_all

theorem Tallies.getElem?_eq_some_iff (tallied : Tallies own known calls counts)
    (signature : Signature) (n : Nat) :
    counts[signature]? = some n ↔
      signature ∈ known ∧ signature ∉ own ∧ n = calls signature ∧ 1 ≤ n := by
  rw [tallied signature]
  split
  next counted =>
    obtain ⟨member, foreign, called⟩ := counted
    simp only [member, foreign, Option.some.injEq, not_false_eq_true, true_and]
    omega
  next uncounted =>
    simp only [reduceCtorEq, false_iff]
    rintro ⟨member, foreign, counted, called⟩
    exact uncounted ⟨member, foreign, counted ▸ called⟩

theorem Tallies.getD_eq (tallied : Tallies own known calls counts) (signature : Signature) :
    counts.getD signature 0 =
      if signature ∈ known ∧ signature ∉ own then calls signature else 0 := by
  rw [Std.ExtTreeMap.getD_eq_getD_getElem?, tallied signature]
  by_cases kept : signature ∈ known ∧ signature ∉ own
  · cases calls signature <;> simp [kept]
  · simp only [← and_assoc, kept, false_and, if_false, Option.getD_none]

/-- No entry is zero. -/
theorem Tallies.mem_iff_getD_pos (tallied : Tallies own known calls counts)
    (signature : Signature) : signature ∈ counts ↔ 0 < counts.getD signature 0 := by
  rw [Std.ExtTreeMap.getD_eq_getD_getElem?, ← Std.ExtTreeMap.isSome_getElem?_iff_mem]
  cases entry : counts[signature]? with
  | none => simp
  | some n =>
    have positive : 1 ≤ n := ((tallied.getElem?_eq_some_iff signature n).mp entry).2.2.2
    simp only [Option.isSome_some, Option.getD_some, true_iff]
    omega

/-- Only the calls of methods that a count may hold matter to it. -/
theorem Tallies.congr (tallied : Tallies own known calls counts)
    (equal : ∀ signature ∈ known, signature ∉ own → calls' signature = calls signature) :
    Tallies own known calls' counts := by
  intro signature
  rw [tallied signature]
  by_cases kept : signature ∈ known ∧ signature ∉ own
  · rw [equal signature kept.1 kept.2]
  · have left (positive : Prop) : ¬(signature ∈ known ∧ signature ∉ own ∧ positive) :=
      fun all => kept ⟨all.1, all.2.1⟩
    rw [if_neg (left _), if_neg (left _)]

theorem Tallies.iff_calls_eq (tallied : Tallies own known calls counts) :
    Tallies own known calls' counts ↔
      ∀ signature ∈ known, signature ∉ own → calls' signature = calls signature := by
  constructor
  · intro tallied' signature indexed foreign
    have same := (tallied signature).symm.trans (tallied' signature)
    simp only [indexed, foreign, not_false_eq_true, true_and] at same
    split at same <;> split at same <;> simp at same <;> omega
  · exact tallied.congr

theorem Tallies.empty : Tallies own known (fun _ => 0) ∅ := by
  intro signature
  simp

/-- Recording a target adds one to its calls, whether or not it is kept. -/
theorem Tallies.record (tallied : Tallies own known calls counts) (target : Signature) :
    Tallies own known (fun signature => calls signature + if target = signature then 1 else 0)
      (UsageCount.record own known counts target) := by
  by_cases kept : target ∈ known ∧ target ∉ own
  · intro signature
    rw [UsageCount.record, if_pos kept, Std.ExtTreeMap.getElem?_insert]
    by_cases same : target = signature
    · subst same
      have before : counts.getD target 0 = calls target := by
        rw [Std.ExtTreeMap.getD_eq_getD_getElem?, tallied target]
        split
        next => rfl
        next none =>
          have zero : ¬0 < calls target := fun positive => none ⟨kept.1, kept.2, positive⟩
          simp only [Option.getD_none]
          omega
      simp [kept, before]
    · simp [same, tallied signature]
  · rw [UsageCount.record, if_neg kept]
    refine tallied.congr ?_
    intro signature indexed foreign
    have other : target ≠ signature := by
      rintro rfl
      exact kept ⟨indexed, foreign⟩
    rw [if_neg other, Nat.add_zero]

/-- From a tally on, recording the targets of further sites tallies these as well. -/
theorem foldlM_record_eq_ok_iff (tallied : Tallies own known calls counts) (resolver : Resolver)
    (sites : List CallSite) (result : UsageCount) :
    sites.foldlM (fun counts site => do
        let target ← site.target resolver known
        return UsageCount.record own known counts target) counts = .ok result ↔
      (∀ call ∈ sites.map CallSite.call, ∃ target, resolver.resolve known call = .ok target) ∧
      Tallies own known (fun signature => calls signature +
        (sites.map CallSite.call).countP fun call =>
          (resolver.resolve known call).toOption = some signature) result := by
  induction sites generalizing calls counts with
  | nil =>
    simp only [List.foldlM_nil, List.map_nil, List.countP_nil, Nat.add_zero, List.not_mem_nil,
      false_implies, implies_true, true_and, pure, Except.pure, Except.ok.injEq]
    constructor
    · rintro rfl
      exact tallied
    · exact tallied.unique
  | cons site sites ih =>
    -- the site at the front counts before the others in the fold, after them in `countP`
    have moved (target : Signature) (resolved : resolver.resolve known site.call = .ok target) :
        (fun signature => calls signature + (if target = signature then 1 else 0) +
          (sites.map CallSite.call).countP fun call =>
            (resolver.resolve known call).toOption = some signature) =
        fun signature => calls signature +
          ((site :: sites).map CallSite.call).countP fun call =>
            (resolver.resolve known call).toOption = some signature := by
      funext signature
      simp only [List.map_cons, List.countP_cons, resolved, Except.toOption, decide_eq_true_eq,
        Option.some.injEq]
      omega
    rw [List.foldlM_cons, bind_eq_ok_iff]
    simp only [bind_eq_ok_iff, target_eq_ok_iff, pure, Except.pure, Except.ok.injEq]
    constructor
    · rintro ⟨_, ⟨target, resolved, rfl⟩, rest⟩
      obtain ⟨others, tallied'⟩ := (ih (tallied.record target)).mp rest
      refine ⟨List.forall_mem_cons.mpr ⟨⟨target, resolved⟩, others⟩, ?_⟩
      rwa [← moved target resolved]
    · rintro ⟨resolves, tallied'⟩
      obtain ⟨⟨target, resolved⟩, others⟩ := List.forall_mem_cons.mp resolves
      refine ⟨_, ⟨target, resolved, rfl⟩, (ih (tallied.record target)).mpr ⟨others, ?_⟩⟩
      rwa [moved target resolved]

/-- Sites with resolved calls can be recorded. -/
theorem exists_foldlM_record (own known : SignatureSet) (resolver : Resolver)
    (sites : List CallSite) (counts : UsageCount)
    (resolves : ∀ call ∈ sites.map CallSite.call,
      ∃ target, resolver.resolve known call = .ok target) :
    ∃ result, sites.foldlM (fun counts site => do
        let target ← site.target resolver known
        return UsageCount.record own known counts target) counts = .ok result := by
  induction sites generalizing counts with
  | nil => exact ⟨counts, rfl⟩
  | cons site sites ih =>
    obtain ⟨⟨target, resolved⟩, others⟩ := List.forall_mem_cons.mp resolves
    obtain ⟨result, recorded⟩ := ih (UsageCount.record own known counts target) others
    refine ⟨result, ?_⟩
    rw [List.foldlM_cons, bind_eq_ok_iff]
    refine ⟨_, ?_, recorded⟩
    rw [(target_eq_ok_iff resolver known site target).mpr resolved]
    rfl

end Tallies

/-- Counting succeeds exactly if every call is resolved, and its result is then the tally. -/
theorem countUsage_eq_ok_iff (classes : List ClassFile) (own known : SignatureSet)
    (resolver : Resolver) (counts : UsageCount) :
    countUsage classes own known resolver = .ok counts ↔
      Resolves classes known resolver ∧
        Tallies own known (callCount classes known resolver) counts := by
  rw [countUsage, foldlM_record_eq_ok_iff Tallies.empty, map_call_callSites]
  simp only [Nat.zero_add]
  rfl

theorem exists_tallies {classes : List ClassFile} {known : SignatureSet} {resolver : Resolver}
    (own : SignatureSet) (resolves : Resolves classes known resolver) :
    ∃ counts, Tallies own known (callCount classes known resolver) counts := by
  rw [Resolves, ← map_call_callSites] at resolves
  obtain ⟨counts, recorded⟩ :=
    exists_foldlM_record own known resolver (callSites classes) ∅ resolves
  exact ⟨counts, ((countUsage_eq_ok_iff classes own known resolver counts).mp recorded).2⟩

theorem exists_countUsage_iff (classes : List ClassFile) (own known : SignatureSet)
    (resolver : Resolver) :
    (∃ counts, countUsage classes own known resolver = .ok counts) ↔
      Resolves classes known resolver := by
  simp only [countUsage_eq_ok_iff, exists_and_left]
  exact and_iff_left_of_imp (exists_tallies own)

end JarCensus
