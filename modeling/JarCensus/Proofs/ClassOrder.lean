import JarCensus.Proofs.HierarchyRefinement
import JarCensus.Proofs.SelfExclusion

/-! The order of classes. What classes declare and call is collected by folds that stop at the first
failure, and of classes with one name the last gives the supertypes. Rearranged classes still declare
the same methods, and if names are distinct their calls are resolved and counted alike. -/
namespace JarCensus

variable {classes classes' : List ClassFile}

theorem declaredMethods_perm (rearranged : classes.Perm classes') (declared : SignatureSet) :
    declaredMethods classes = .ok declared ↔ declaredMethods classes' = .ok declared := by
  have methods := rearranged.flatMap_right ClassFile.methods
  simp only [declaredMethods_eq_ok_iff, methods.mem_iff]

theorem invocations_perm (rearranged : classes.Perm classes') :
    (invocations classes).Perm (invocations classes') :=
  rearranged.flatMap_right _

theorem countUsage_perm (rearranged : classes.Perm classes') (own known : SignatureSet)
    (resolver : Resolver) (counts : UsageCount) :
    countUsage classes own known resolver = .ok counts ↔
      countUsage classes' own known resolver = .ok counts := by
  have calls := invocations_perm rearranged
  have same : callCount classes known resolver = callCount classes' known resolver :=
    funext fun signature => calls.countP_eq _
  simp only [countUsage_eq_ok_iff, Resolves, calls.mem_iff, same]

/-- If no two classes have one name, the last class of a name is the only one. -/
theorem find?_reverse_eq_some_iff (distinct : (classes.map ClassFile.name).Nodup) (name : String)
    (cls : ClassFile) :
    classes.reverse.find? (·.name = name) = some cls ↔ cls ∈ classes ∧ cls.name = name := by
  have origin {other : ClassFile} (found : classes.reverse.find? (·.name = name) = some other) :
      other ∈ classes ∧ other.name = name :=
    ⟨List.mem_reverse.mp (List.mem_of_find?_eq_some found), by simpa using List.find?_some found⟩
  refine ⟨origin, fun ⟨member, named⟩ => ?_⟩
  cases found : classes.reverse.find? (·.name = name) with
  | none =>
    have unnamed := List.find?_eq_none.mp found cls (List.mem_reverse.mpr member)
    simp [named] at unnamed
  | some other =>
    obtain ⟨there, named'⟩ := origin found
    rw [List.inj_on_of_nodup_map distinct there member (named'.trans named.symm)]

theorem Hierarchy.ofClasses_perm (rearranged : classes.Perm classes')
    (distinct : (classes.map ClassFile.name).Nodup) : ofClasses classes = ofClasses classes' := by
  have distinct' := (rearranged.map ClassFile.name).nodup_iff.mp distinct
  have found (name : String) : classes.reverse.find? (·.name = name) =
      classes'.reverse.find? (·.name = name) := by
    apply Option.ext
    intro cls
    rw [find?_reverse_eq_some_iff distinct, find?_reverse_eq_some_iff distinct',
      rearranged.mem_iff]
  rw [ofClasses, ofClasses, Hierarchy.mk.injEq]
  apply Std.ExtTreeMap.ext_getElem?
  intro name
  rw [getElem?_foldl_insert, getElem?_foldl_insert, found]

theorem Resolution.resolver_perm (resolution : Resolution) (rearranged : classes.Perm classes')
    (distinct : resolution = .hierarchy → (classes.map ClassFile.name).Nodup) :
    resolution.resolver classes = resolution.resolver classes' := by
  cases resolution with
  | exact => rfl
  | hierarchy =>
    exact congrArg Resolver.hierarchy (Hierarchy.ofClasses_perm rearranged (distinct rfl))

/-- The order of classes plays no part in what they declare, nor in what a scan of them counts if
calls are resolved by the owners they name or no two classes have one name. Which call or method a
failure is about may depend on it, whether there is a failure does not. -/
theorem analyze_ignores_class_order (index : MethodIndex) (resolution : Resolution)
    (archive : String) (rearranged : classes.Perm classes') :
    ((resolution = .hierarchy → (classes.map ClassFile.name).Nodup) →
      ((∃ counts, index.analyze resolution archive classes = .ok counts) ↔
        ∃ counts, index.analyze resolution archive classes' = .ok counts) ∧
      ∀ counts counts', index.analyze resolution archive classes = .ok counts →
        index.analyze resolution archive classes' = .ok counts' → counts = counts') ∧
    ((∃ declared, declaredMethods classes = .ok declared) ↔
      ∃ declared, declaredMethods classes' = .ok declared) ∧
    ∀ declared declared', declaredMethods classes = .ok declared →
      declaredMethods classes' = .ok declared' → declared = declared' := by
  have declares := declaredMethods_perm rearranged
  refine ⟨fun distinct => ?_, exists_congr declares, ?_⟩
  · have scans (counts : UsageCount) :
        index.analyze resolution archive classes = .ok counts ↔
          index.analyze resolution archive classes' = .ok counts := by
      rw [MethodIndex.analyze, MethodIndex.analyze, resolution.resolver_perm rearranged distinct]
      cases index.declaredIn archive with
      | some own => exact countUsage_perm rearranged own index.all _ counts
      | none => simp only [bind_eq_ok_iff, declares, countUsage_perm rearranged]
    refine ⟨exists_congr scans, fun counts counts' scanned scanned' => ?_⟩
    exact Except.ok.inj (((scans counts).mp scanned).symm.trans scanned')
  · intro declared declared' collected collected'
    exact Except.ok.inj (((declares declared).mp collected).symm.trans collected')

/-- A scan that counts a call by its owner and one by a subclass. -/
theorem analyze_inheriting :
    (MethodIndex.empty.insert "lib.jar" {"lib.Util#add(int, int)"}).analyze .hierarchy "app.jar"
      inheritingClasses = .ok {("lib.Util#add(int, int)", 2)} := by
  have declares : declaredMethods inheritingClasses = .ok {"app.Main#run()"} := rfl
  have sites : callSites inheritingClasses =
      [⟨"app.Main", "run", ⟨.static, "lib.Util", "add", "(II)I"⟩⟩,
        ⟨"app.Main", "run", ⟨.static, "app.MyUtil", "add", "(II)I"⟩⟩] := rfl
  have direct : (Resolution.hierarchy.resolver inheritingClasses).resolve
      {"lib.Util#add(int, int)"} ⟨.static, "lib.Util", "add", "(II)I"⟩ =
        .ok "lib.Util#add(int, int)" := resolve_hierarchy_of_mem _ rfl (by decide)
  rw [MethodIndex.analyze, MethodIndex.declaredIn_insert, if_neg (by decide),
    MethodIndex.declaredIn_empty, declares, MethodIndex.all_insert_empty, bind_eq_ok_iff]
  refine ⟨_, rfl, ?_⟩
  simp only [countUsage, sites, List.foldlM_cons, List.foldlM_nil, bind_eq_ok_iff, target_eq_ok_iff]
  exact ⟨_, ⟨_, direct, rfl⟩, _, ⟨_, resolve_inheriting, rfl⟩, rfl⟩

/-- The calling class is now looked at before the subclass whose supertypes it needs. -/
theorem analyze_inheriting_reversed :
    inheritingClasses.Perm inheritingClasses.reverse ∧
    (inheritingClasses.map ClassFile.name).Nodup ∧
    (MethodIndex.empty.insert "lib.jar" {"lib.Util#add(int, int)"}).analyze .hierarchy "app.jar"
      inheritingClasses.reverse = .ok {("lib.Util#add(int, int)", 2)} := by
  have reversed : inheritingClasses.Perm inheritingClasses.reverse :=
    (List.reverse_perm inheritingClasses).symm
  have distinct : (inheritingClasses.map ClassFile.name).Nodup := by decide
  obtain ⟨succeeds, same⟩ := (analyze_ignores_class_order
    (MethodIndex.empty.insert "lib.jar" {"lib.Util#add(int, int)"}) .hierarchy "app.jar"
    reversed).1 fun _ => distinct
  obtain ⟨counts, scanned⟩ := succeeds.mp ⟨_, analyze_inheriting⟩
  rw [scanned, ← same _ counts analyze_inheriting scanned]
  exact ⟨reversed, distinct, rfl⟩

end JarCensus
