import JarCensus.Proofs.Counting

/-! How counting ends. The first call that is not resolved stops it, with what was being done then;
otherwise it has counted every call, so the counts of two lists of classes add up. -/
namespace JarCensus

variable {known : SignatureSet} {resolver : Resolver}

/-- `call`, in `method` of `cls`, cannot be resolved, and every call before it can: those of the
classes before, of the methods before in the class, and of the instructions before in the method. -/
def StopsAt (classes : List ClassFile) (known : SignatureSet) (resolver : Resolver)
    (cls : ClassFile) (method : Method) (call : Invocation) (error : FormatError) : Prop :=
  ∃ classesBefore classesAfter methodsBefore methodsAfter callsBefore callsAfter,
    classes = classesBefore ++ cls :: classesAfter ∧
    cls.methods = methodsBefore ++ method :: methodsAfter ∧
    method.invocations = callsBefore ++ call :: callsAfter ∧
    (∀ earlier ∈ invocations classesBefore ++ methodsBefore.flatMap Method.invocations ++
        callsBefore, ∃ target, resolver.resolve known earlier = .ok target) ∧
    resolver.resolve known call = .error error

/-- `both` has an entry where one of the two counts has, with the calls of both. -/
def IsSum (counts counts' both : UsageCount) : Prop :=
  ∀ signature : Signature, both[signature]? =
    Option.merge (fun m n : Nat => m + n) counts[signature]? counts'[signature]?

theorem target_eq_error_iff (resolver : Resolver) (known : SignatureSet) (site : CallSite)
    (failure : Failure) :
    site.target resolver known = .error failure ↔
      ∃ error, resolver.resolve known site.call = .error error ∧
        failure = ⟨[.callTarget site.call site.className site.methodName], .format error⟩ :=
  formatDuring_eq_error_iff _ _ _

/-- Recording stops at the first site whose call is not resolved. -/
theorem foldlM_record_eq_error_iff (own known : SignatureSet) (resolver : Resolver)
    (sites : List CallSite) (failure : Failure) :
    sites.foldlM (fun counts site => do
        let target ← site.target resolver known
        return UsageCount.record own known counts target) ∅ = .error failure ↔
      ∃ earlier site later, sites = earlier ++ site :: later ∧
        (∀ call ∈ earlier.map CallSite.call, ∃ target, resolver.resolve known call = .ok target) ∧
        site.target resolver known = .error failure := by
  rw [foldlM_eq_error_iff]
  simp only [bind_eq_error_iff, pure, Except.pure, reduceCtorEq, and_false, exists_false, or_false]
  constructor
  · rintro ⟨earlier, site, later, reached, shape, recorded, failed⟩
    exact ⟨earlier, site, later, shape, ((foldlM_record_eq_ok_iff .empty ..).mp recorded).1, failed⟩
  · rintro ⟨earlier, site, later, shape, before, failed⟩
    obtain ⟨reached, recorded⟩ := exists_foldlM_record own known resolver earlier ∅ before
    exact ⟨earlier, site, later, reached, shape, recorded, failed⟩

/-- What a list of lists holds at some place stands in one of them, after all of those before. -/
theorem exists_split_of_flatMap {α β : Type} {f : α → List β} {items : List α}
    {before after : List β} {x : β} (shape : items.flatMap f = before ++ x :: after) :
    ∃ itemsBefore item itemsAfter within rest, items = itemsBefore ++ item :: itemsAfter ∧
      f item = within ++ x :: rest ∧ before = itemsBefore.flatMap f ++ within := by
  induction items generalizing before with
  | nil => simp at shape
  | cons item items ih =>
    rw [List.flatMap_cons, List.append_eq_append_iff] at shape
    rcases shape with ⟨between, rfl, shape⟩ | ⟨_ | ⟨y, rest⟩, within, shape⟩
    · obtain ⟨itemsBefore, other, itemsAfter, within, rest, rfl, found, rfl⟩ := ih shape
      exact ⟨item :: itemsBefore, other, itemsAfter, within, rest, rfl, found, by simp⟩
    · have later : items.flatMap f = [] ++ x :: after := shape.symm
      obtain ⟨itemsBefore, other, itemsAfter, within', rest, rfl, found, nothing⟩ := ih later
      refine ⟨item :: itemsBefore, other, itemsAfter, within', rest, rfl, found, ?_⟩
      rw [List.flatMap_cons, List.append_assoc, ← nothing, within]
      simp
    · obtain ⟨rfl, -⟩ := List.cons.inj shape
      exact ⟨[], item, items, before, rest, rfl, within, by simp⟩

/-- The first call that is not resolved stops counting. -/
theorem countUsage_eq_error_iff (classes : List ClassFile) (own known : SignatureSet)
    (resolver : Resolver) (failure : Failure) :
    countUsage classes own known resolver = .error failure ↔
      ∃ cls method call error, StopsAt classes known resolver cls method call error ∧
        failure = ⟨[.callTarget call cls.name method.name], .format error⟩ := by
  rw [countUsage, foldlM_record_eq_error_iff]
  constructor
  · rintro ⟨earlier, site, later, shape, before, failed⟩
    obtain ⟨error, unresolved, rfl⟩ := (target_eq_error_iff ..).mp failed
    obtain ⟨classesBefore, cls, classesAfter, withinClass, _, rfl, inClass, rfl⟩ :=
      exists_split_of_flatMap shape
    obtain ⟨methodsBefore, method, methodsAfter, withinMethod, _, methods, inMethod, rfl⟩ :=
      exists_split_of_flatMap inClass
    obtain ⟨callsBefore, rest, calls, rfl, placed⟩ := List.map_eq_append_iff.mp inMethod
    obtain ⟨call, callsAfter, rfl, rfl, -⟩ := List.map_eq_cons_iff.mp placed
    refine ⟨cls, method, call, error, ⟨classesBefore, classesAfter, methodsBefore, methodsAfter,
      callsBefore, callsAfter, rfl, methods, calls, ?_, unresolved⟩, rfl⟩
    intro other member
    apply before other
    rw [← map_call_callSites, List.append_assoc] at member
    simpa [callSites, List.map_flatMap, Function.comp_def] using member
  · rintro ⟨cls, method, call, error, ⟨classesBefore, classesAfter, methodsBefore, methodsAfter,
      callsBefore, callsAfter, rfl, methods, calls, before, unresolved⟩, rfl⟩
    let sitesBefore (method : Method) (calls : List Invocation) : List CallSite :=
      calls.map fun call => ⟨cls.name, method.name, call⟩
    refine ⟨callSites classesBefore ++
      (methodsBefore.flatMap (fun method => sitesBefore method method.invocations) ++
        sitesBefore method callsBefore), ⟨cls.name, method.name, call⟩,
      sitesBefore method callsAfter ++
        (methodsAfter.flatMap (fun method => sitesBefore method method.invocations) ++
          callSites classesAfter), ?_, ?_, ?_⟩
    · simp [callSites, methods, calls, sitesBefore]
    · rw [← map_call_callSites, List.append_assoc] at before
      simpa [sitesBefore, List.map_flatMap, Function.comp_def] using before
    · exact (target_eq_error_iff ..).mpr ⟨error, unresolved, rfl⟩

section Sums

variable {own : SignatureSet} {calls calls' : Signature → Nat} {counts counts' : UsageCount}

/-- Two tallies are together the tally of the calls of both. -/
theorem Tallies.isSum_iff (tallied : Tallies own known calls counts)
    (tallied' : Tallies own known calls' counts') (both : UsageCount) :
    IsSum counts counts' both ↔
      Tallies own known (fun signature => calls signature + calls' signature) both := by
  have merged (signature : Signature) :
      Option.merge (fun m n : Nat => m + n) counts[signature]? counts'[signature]? =
        if signature ∈ known ∧ signature ∉ own ∧ 0 < calls signature + calls' signature then
          some (calls signature + calls' signature) else none := by
    rw [tallied signature, tallied' signature]
    by_cases kept : signature ∈ known ∧ signature ∉ own
    · cases calls signature <;> cases calls' signature <;> simp [kept]
    · simp only [← and_assoc, kept, false_and, if_false, Option.merge]
  simp only [IsSum, merged, Tallies]

end Sums

theorem invocations_append (classes more : List ClassFile) :
    invocations (classes ++ more) = invocations classes ++ invocations more := by
  simp [invocations]

theorem callCount_append (classes more : List ClassFile) (known : SignatureSet)
    (resolver : Resolver) (signature : Signature) :
    callCount (classes ++ more) known resolver signature =
      callCount classes known resolver signature + callCount more known resolver signature := by
  rw [callCount, invocations_append, List.countP_append, callCount, callCount]

theorem resolves_append_iff (classes more : List ClassFile) :
    Resolves (classes ++ more) known resolver ↔
      Resolves classes known resolver ∧ Resolves more known resolver := by
  simp only [Resolves, invocations_append, List.forall_mem_append]

/-- Counting fails exactly if some call is not resolved. -/
theorem exists_countUsage_error_iff (classes : List ClassFile) (own known : SignatureSet)
    (resolver : Resolver) :
    (∃ failure, countUsage classes own known resolver = .error failure) ↔
      ∃ call ∈ invocations classes, ∃ error, resolver.resolve known call = .error error := by
  constructor
  · rintro ⟨failure, failed⟩
    obtain ⟨cls, method, call, error, stops, -⟩ := (countUsage_eq_error_iff ..).mp failed
    obtain ⟨_, _, _, _, _, _, rfl, methods, calls, -, unresolved⟩ := stops
    exact ⟨call, by simp [invocations, methods, calls], error, unresolved⟩
  · rintro ⟨call, member, error, unresolved⟩
    cases outcome : countUsage classes own known resolver with
    | error failure => exact ⟨failure, rfl⟩
    | ok counts =>
      obtain ⟨target, resolved⟩ := ((countUsage_eq_ok_iff ..).mp outcome).1 call member
      cases unresolved.symm.trans resolved

/-- Classes taken together are counted exactly if each part is, and their counts add up. -/
theorem countUsage_append_eq_ok_iff (classes more : List ClassFile) (own known : SignatureSet)
    (resolver : Resolver) (both : UsageCount) :
    countUsage (classes ++ more) own known resolver = .ok both ↔
      ∃ counts counts', countUsage classes own known resolver = .ok counts ∧
        countUsage more own known resolver = .ok counts' ∧ IsSum counts counts' both := by
  simp only [countUsage_eq_ok_iff, resolves_append_iff]
  have together : callCount (classes ++ more) known resolver = fun signature =>
      callCount classes known resolver signature + callCount more known resolver signature :=
    funext (callCount_append classes more known resolver)
  rw [together]
  constructor
  · rintro ⟨⟨resolves, resolves'⟩, tallied⟩
    obtain ⟨counts, first⟩ := exists_tallies own resolves
    obtain ⟨counts', second⟩ := exists_tallies own resolves'
    exact ⟨counts, counts', ⟨resolves, first⟩, ⟨resolves', second⟩,
      (first.isSum_iff second both).mpr tallied⟩
  · rintro ⟨counts, counts', ⟨resolves, first⟩, ⟨resolves', second⟩, sum⟩
    exact ⟨⟨resolves, resolves'⟩, (first.isSum_iff second both).mp sum⟩

/-- Counting fails with the first call that is not resolved, said to be a call of its class and
method. Otherwise every known signature that is not the archive's own has as many calls as are
resolved to it, and none has an entry without calls. -/
theorem countUsage_counts_exactly (classes more : List ClassFile) (own known : SignatureSet)
    (resolver : Resolver) :
    ((∃ failure, countUsage classes own known resolver = .error failure) ↔
      ∃ call ∈ invocations classes, ∃ error, resolver.resolve known call = .error error) ∧
    (∀ failure, countUsage classes own known resolver = .error failure ↔
      ∃ cls method call error, StopsAt classes known resolver cls method call error ∧
        failure = ⟨[.callTarget call cls.name method.name], .format error⟩ ∧
        failure.chain = ["Bad call target " ++ call.owner ++ "." ++ call.name ++
          call.descriptor ++ " in " ++ cls.name ++ "." ++ method.name, error.message]) ∧
    (∀ counts, countUsage classes own known resolver = .ok counts → ∀ signature,
      (signature ∈ counts ↔ signature ∈ known ∧ signature ∉ own ∧
        ∃ call ∈ invocations classes, resolver.resolve known call = .ok signature) ∧
      ∀ n, counts[signature]? = some n → n = callCount classes known resolver signature) ∧
    ∀ both, countUsage (classes ++ more) own known resolver = .ok both ↔
      ∃ counts counts', countUsage classes own known resolver = .ok counts ∧
        countUsage more own known resolver = .ok counts' ∧ IsSum counts counts' both := by
  refine ⟨exists_countUsage_error_iff .., ?_, ?_,
    countUsage_append_eq_ok_iff classes more own known resolver⟩
  · intro failure
    rw [countUsage_eq_error_iff]
    constructor
    · rintro ⟨cls, method, call, error, stops, rfl⟩
      exact ⟨cls, method, call, error, stops, rfl, rfl⟩
    · rintro ⟨cls, method, call, error, stops, named, -⟩
      exact ⟨cls, method, call, error, stops, named⟩
  · intro counts counted signature
    have tallied := ((countUsage_eq_ok_iff ..).mp counted).2
    constructor
    · rw [tallied.mem_iff, callCount_pos_iff]
    · intro n entry
      exact ((tallied.getElem?_eq_some_iff signature n).mp entry).2.2.1

end JarCensus
