import JarCensus.Proofs.Counting

/-! Calls of a scanned archive's own methods. They take no part in its count unless a resolver moves
them to a known method of a supertype: what is left out is judged by where a call was moved to. -/
namespace JarCensus

/-- The method without the calls that `drop` picks. -/
def Method.withoutCalls (drop : Invocation → Bool) (method : Method) : Method :=
  { method with instructions := method.instructions.filter fun instruction =>
      !instruction.call?.any drop }

def ClassFile.withoutCalls (drop : Invocation → Bool) (cls : ClassFile) : ClassFile :=
  { cls with methods := cls.methods.map (Method.withoutCalls drop) }

/-- The calls that name a method of `own`. -/
def Invocation.isOwn (own : SignatureSet) (call : Invocation) : Bool :=
  call.signature.toOption.any fun signature => signature ∈ own

/-- The classes without their calls of methods of `own`. -/
def withoutOwnCalls (own : SignatureSet) (classes : List ClassFile) : List ClassFile :=
  classes.map (ClassFile.withoutCalls (Invocation.isOwn own))

/-- A call that names a method of `own` but is counted as a known method that is not. -/
def Strays (own known : SignatureSet) (resolver : Resolver) (call : Invocation) : Prop :=
  ∃ named target, call.signature = .ok named ∧ named ∈ own ∧
    resolver.resolve known call = .ok target ∧ target ∈ known ∧ target ∉ own

theorem isOwn_iff (own : SignatureSet) (call : Invocation) :
    call.isOwn own = true ↔ ∃ named, call.signature = .ok named ∧ named ∈ own := by
  simp [Invocation.isOwn, Option.any_eq_true, toOption_eq_some_iff]

theorem invocations_withoutCalls (drop : Invocation → Bool) (method : Method) :
    (method.withoutCalls drop).invocations =
      method.invocations.filter fun call => !drop call := by
  rw [Method.invocations, Method.invocations, Method.withoutCalls, List.filter_filterMap,
    List.filterMap_filter]
  congr 1
  funext instruction
  cases instruction with
  | invocation call =>
    cases dropped : drop call <;> simp [Instruction.call?, Option.filter, dropped]
  | other opcode => simp [Instruction.call?]

theorem invocations_withoutOwnCalls (own : SignatureSet) (classes : List ClassFile) :
    invocations (withoutOwnCalls own classes) =
      (invocations classes).filter fun call => !call.isOwn own := by
  simp [invocations, withoutOwnCalls, List.flatMap_map, List.filter_flatMap,
    ClassFile.withoutCalls, invocations_withoutCalls]

/-- Bodies play no part in what classes declare. -/
theorem declaredMethods_withoutOwnCalls (own : SignatureSet) (classes : List ClassFile) :
    declaredMethods (withoutOwnCalls own classes) = declaredMethods classes := by
  have methods : (withoutOwnCalls own classes).flatMap ClassFile.methods =
      (classes.flatMap ClassFile.methods).map (Method.withoutCalls (Invocation.isOwn own)) := by
    simp [withoutOwnCalls, List.flatMap_map, List.map_flatMap, ClassFile.withoutCalls]
  rw [declaredMethods, methods, List.foldlM_map]
  rfl

theorem resolver_withoutOwnCalls (own : SignatureSet) (classes : List ClassFile)
    (resolution : Resolution) :
    resolution.resolver (withoutOwnCalls own classes) = resolution.resolver classes := by
  cases resolution with
  | exact => rfl
  | hierarchy =>
    rw [Resolution.resolver, Resolution.resolver, Hierarchy.ofClasses, Hierarchy.ofClasses,
      withoutOwnCalls, List.foldl_map]
    rfl

/-- A resolver moves no call if it only looks at the signature that the call names. -/
theorem not_strays_exact (own known : SignatureSet) (call : Invocation) :
    ¬Strays own known .exact call := by
  rintro ⟨named, target, signature, mine, resolved, -, foreign⟩
  rw [Resolver.resolve, signature] at resolved
  obtain rfl : named = target := by simpa [bind, Except.bind, pure, Except.pure] using resolved
  exact foreign mine

theorem callCount_withoutOwnCalls_eq_iff (own known : SignatureSet) (classes : List ClassFile)
    (resolver : Resolver) (signature : Signature) :
    callCount (withoutOwnCalls own classes) known resolver signature =
        callCount classes known resolver signature ↔
      ∀ call ∈ invocations classes, call.isOwn own = true →
        resolver.resolve known call ≠ .ok signature := by
  rw [callCount, callCount, invocations_withoutOwnCalls,
    List.countP_eq_countP_filter_add (invocations classes) _ fun call => !call.isOwn own,
    Nat.left_eq_add, List.countP_eq_zero]
  simp only [List.mem_filter, Bool.not_not, decide_eq_true_eq, toOption_eq_some_iff, and_imp, Ne]

/-- The calls that a count may hold are as many without the calls of own methods exactly if none of
these strays. -/
theorem callCounts_withoutOwnCalls_eq_iff (own known : SignatureSet) (classes : List ClassFile)
    (resolver : Resolver) :
    (∀ signature ∈ known, signature ∉ own →
        callCount (withoutOwnCalls own classes) known resolver signature =
          callCount classes known resolver signature) ↔
      ∀ call ∈ invocations classes, ¬Strays own known resolver call := by
  simp only [callCount_withoutOwnCalls_eq_iff]
  constructor
  · rintro kept call member ⟨named, target, signature, mine, resolved, indexed, foreign⟩
    have isOwn := (isOwn_iff own call).mpr ⟨named, signature, mine⟩
    exact kept target indexed foreign call member isOwn resolved
  · intro kept signature indexed foreign call member isOwn resolved
    obtain ⟨named, names, mine⟩ := (isOwn_iff own call).mp isOwn
    exact kept call member ⟨named, signature, names, mine, resolved, indexed, foreign⟩

/-- Calls of own methods can be deleted without changing the count exactly if none of them strays.
Under exact resolution none does. -/
theorem countUsage_withoutOwnCalls_iff (classes : List ClassFile) (known : SignatureSet)
    (resolution : Resolution) {own : SignatureSet} {counts : UsageCount}
    (declares : declaredMethods classes = .ok own)
    (counted : countUsage classes own known (resolution.resolver classes) = .ok counts) :
    declaredMethods (withoutOwnCalls own classes) = .ok own ∧
    (countUsage (withoutOwnCalls own classes) own known
          (resolution.resolver (withoutOwnCalls own classes)) = .ok counts ↔
      ∀ call ∈ invocations classes, ¬Strays own known (resolution.resolver classes) call) ∧
    (resolution = .exact →
      countUsage (withoutOwnCalls own classes) own known
        (resolution.resolver (withoutOwnCalls own classes)) = .ok counts) := by
  obtain ⟨resolves, tallied⟩ := (countUsage_eq_ok_iff ..).mp counted
  have resolves' : Resolves (withoutOwnCalls own classes) known (resolution.resolver classes) := by
    intro call member
    rw [invocations_withoutOwnCalls] at member
    exact resolves call (List.mem_filter.mp member).1
  have unchanged : countUsage (withoutOwnCalls own classes) own known
        (resolution.resolver (withoutOwnCalls own classes)) = .ok counts ↔
      ∀ call ∈ invocations classes, ¬Strays own known (resolution.resolver classes) call := by
    rw [resolver_withoutOwnCalls, countUsage_eq_ok_iff, tallied.iff_calls_eq,
      callCounts_withoutOwnCalls_eq_iff]
    exact and_iff_right resolves'
  refine ⟨(declaredMethods_withoutOwnCalls own classes).trans declares, unchanged, ?_⟩
  rintro rfl
  rw [unchanged]
  intro call member
  exact not_strays_exact own known call

/-- A class that overrides a method of its superclass, and one that calls the overriding method. -/
def overridingClasses : List ClassFile :=
  [⟨0, 52, 0x21, "app.Child", some "lib.Base", [], [⟨"app.Child", 0x01, "close", "()V", []⟩]⟩,
    ⟨0, 52, 0x21, "app.Main", none, [],
      [⟨"app.Main", 0x09, "run", "()V", [.invocation ⟨.virtual, "app.Child", "close", "()V"⟩]⟩]⟩]

theorem resolve_overriding :
    (Resolution.hierarchy.resolver overridingClasses).resolve {"lib.Base#close()"}
      ⟨.virtual, "app.Child", "close", "()V"⟩ = .ok "lib.Base#close()" := by
  have named : Invocation.signature ⟨.virtual, "app.Child", "close", "()V"⟩ =
      .ok "app.Child#close()" := rfl
  have above : Signature.canonical "lib.Base" "close" "()V" = .ok "lib.Base#close()" := rfl
  have ancestors : (Hierarchy.ofClasses overridingClasses).ancestors "app.Child" =
      ["app.Child", "lib.Base"] := by
    simp [overridingClasses, Hierarchy.ofClasses, Hierarchy.ancestors, Hierarchy.walk,
      Std.ExtTreeMap.getElem_insert, ClassFile.supertypes]
  simp [Resolution.resolver, Resolver.resolve, Resolver.firstKnown, named, ancestors, above, bind,
    Except.bind, pure, Except.pure]

/-- The call of the overriding method is counted for the overridden one, which is not the
archive's own. -/
theorem countUsage_counts_own_call :
    ∃ own counts,
      declaredMethods overridingClasses = .ok own ∧
      countUsage overridingClasses own {"lib.Base#close()"}
        (Resolution.hierarchy.resolver overridingClasses) = .ok counts ∧
      countUsage (withoutOwnCalls own overridingClasses) own {"lib.Base#close()"}
        (Resolution.hierarchy.resolver (withoutOwnCalls own overridingClasses)) ≠ .ok counts := by
  have declares : declaredMethods overridingClasses =
      .ok {"app.Main#run()", "app.Child#close()"} := rfl
  have counted : countUsage overridingClasses {"app.Main#run()", "app.Child#close()"}
      {"lib.Base#close()"} (Resolution.hierarchy.resolver overridingClasses) =
        .ok {("lib.Base#close()", 1)} := by
    have sites : callSites overridingClasses =
        [⟨"app.Main", "run", ⟨.virtual, "app.Child", "close", "()V"⟩⟩] := rfl
    rw [countUsage, sites, List.foldlM_cons, bind_eq_ok_iff]
    refine ⟨_, ?_, rfl⟩
    rw [bind_eq_ok_iff]
    exact ⟨_, (target_eq_ok_iff ..).mpr resolve_overriding, rfl⟩
  refine ⟨_, _, declares, counted, ?_⟩
  rw [Ne, (countUsage_withoutOwnCalls_iff overridingClasses _ .hierarchy declares counted).2.1]
  intro kept
  refine kept ⟨.virtual, "app.Child", "close", "()V"⟩ (.head _) ?_
  exact ⟨"app.Child#close()", "lib.Base#close()", rfl, by decide, resolve_overriding, by decide,
    by decide⟩

end JarCensus
