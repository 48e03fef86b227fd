import JarCensus.Proofs.HierarchyRefinement
import JarCensus.Proofs.SelfExclusion

/-! Scanning with parts of an index. Under exact resolution an index decides only which signatures
are counted: neither the signature that a call is counted as nor what the scanned archive declares is
taken from it. A smaller index therefore counts what it knows as a larger one does, and an index
counts what its archives count one by one. -/
namespace JarCensus

/-- How many calls of `classes` name `signature`. -/
def namedCount (classes : List ClassFile) (signature : Signature) : Nat :=
  (invocations classes).countP fun call => call.signature.toOption = some signature

/-- Every call of `classes` names a signature. -/
def NamesAll (classes : List ClassFile) : Prop :=
  ∀ call ∈ invocations classes, ∃ named, call.signature = .ok named

theorem callCount_exact (classes : List ClassFile) (known : SignatureSet) :
    callCount classes known .exact = namedCount classes := by
  funext signature
  simp only [callCount, namedCount, resolve_exact]

theorem resolves_exact_iff (classes : List ClassFile) (known : SignatureSet) :
    Resolves classes known .exact ↔ NamesAll classes := by
  simp only [Resolves, NamesAll, resolve_exact]

section Exact

variable {index : MethodIndex} {archive : String} (classes : List ClassFile)

/-- Of an index that has nothing filed under the scanned archive's name, a scan takes what it knows. -/
theorem analyze_exact_eq_ok_iff (unfiled : index.declaredIn archive = none) (counts : UsageCount) :
    index.analyze .exact archive classes = .ok counts ↔
      ∃ declared, declaredMethods classes = .ok declared ∧ NamesAll classes ∧
        Tallies declared index.all (namedCount classes) counts := by
  rw [MethodIndex.analyze, unfiled, bind_eq_ok_iff]
  refine exists_congr fun declared => and_congr_right fun _ => ?_
  rw [Resolution.resolver, countUsage_eq_ok_iff, callCount_exact, resolves_exact_iff]

theorem exists_analyze_exact_iff (unfiled : index.declaredIn archive = none) :
    (∃ counts, index.analyze .exact archive classes = .ok counts) ↔
      (∃ declared, declaredMethods classes = .ok declared) ∧ NamesAll classes := by
  simp only [analyze_exact_eq_ok_iff classes unfiled]
  constructor
  · rintro ⟨counts, declared, declares, names, -⟩
    exact ⟨⟨declared, declares⟩, names⟩
  · rintro ⟨⟨declared, declares⟩, names⟩
    obtain ⟨counts, tallied⟩ :=
      exists_tallies declared ((resolves_exact_iff classes index.all).mpr names)
    rw [callCount_exact] at tallied
    exact ⟨counts, declared, declares, names, tallied⟩

/-- A signature that two indexes know has the same calls under both. -/
theorem getD_eq_of_analyze_exact {index' : MethodIndex} {counts counts' : UsageCount}
    (unfiled : index.declaredIn archive = none) (unfiled' : index'.declaredIn archive = none)
    (scanned : index.analyze .exact archive classes = .ok counts)
    (scanned' : index'.analyze .exact archive classes = .ok counts') {signature : Signature}
    (indexed : signature ∈ index.all) (indexed' : signature ∈ index'.all) :
    counts.getD signature 0 = counts'.getD signature 0 := by
  obtain ⟨declared, declares, -, tallied⟩ := (analyze_exact_eq_ok_iff classes unfiled _).mp scanned
  obtain ⟨declared', declares', -, tallied'⟩ :=
    (analyze_exact_eq_ok_iff classes unfiled' _).mp scanned'
  obtain rfl := Except.ok.inj (declares.symm.trans declares')
  rw [tallied.getD_eq, tallied'.getD_eq]
  simp only [indexed, indexed', true_and]

/-- What an index counts is what its archives count one by one. -/
theorem mem_iff_exists_part (consistent : index.Consistent)
    (unfiled : index.declaredIn archive = none) {counts : UsageCount}
    (scanned : index.analyze .exact archive classes = .ok counts) :
    (∀ source methods, index.declaredIn source = some methods →
      ∃ part, (MethodIndex.empty.insert source methods).analyze .exact archive classes =
        .ok part) ∧
    ∀ signature, signature ∈ counts ↔
      ∃ source methods part, index.declaredIn source = some methods ∧
        (MethodIndex.empty.insert source methods).analyze .exact archive classes = .ok part ∧
        signature ∈ part := by
  have alone {source : String} {methods : SignatureSet}
      (filed : index.declaredIn source = some methods) :
      (MethodIndex.empty.insert source methods).declaredIn archive = none := by
    have other : archive ≠ source := by
      rintro rfl
      rw [unfiled] at filed
      cases filed
    rw [MethodIndex.declaredIn_insert, if_neg other, MethodIndex.declaredIn_empty]
  have parts {source : String} {methods : SignatureSet}
      (filed : index.declaredIn source = some methods) :
      ∃ part, (MethodIndex.empty.insert source methods).analyze .exact archive classes =
        .ok part := by
    rw [exists_analyze_exact_iff classes (alone filed), ← exists_analyze_exact_iff classes unfiled]
    exact ⟨counts, scanned⟩
  obtain ⟨declared, declares, -, tallied⟩ := (analyze_exact_eq_ok_iff classes unfiled _).mp scanned
  have counted {source : String} {methods : SignatureSet} {part : UsageCount}
      (filed : index.declaredIn source = some methods)
      (scanned' : (MethodIndex.empty.insert source methods).analyze .exact archive classes =
        .ok part) (signature : Signature) :
      signature ∈ part ↔
        signature ∈ methods ∧ signature ∉ declared ∧ 0 < namedCount classes signature := by
    obtain ⟨declared', declares', -, tallied'⟩ :=
      (analyze_exact_eq_ok_iff classes (alone filed) _).mp scanned'
    obtain rfl := Except.ok.inj (declares.symm.trans declares')
    rw [tallied'.mem_iff, MethodIndex.all_insert_empty]
  refine ⟨fun source methods filed => parts filed, fun signature => ?_⟩
  rw [tallied.mem_iff, consistent signature]
  constructor
  · rintro ⟨⟨source, methods, filed, member⟩, foreign, called⟩
    obtain ⟨part, scanned'⟩ := parts filed
    exact ⟨source, methods, part, filed, scanned',
      (counted filed scanned' signature).mpr ⟨member, foreign, called⟩⟩
  · rintro ⟨source, methods, part, filed, scanned', member⟩
    obtain ⟨among, foreign, called⟩ := (counted filed scanned' signature).mp member
    exact ⟨⟨source, methods, filed, among⟩, foreign, called⟩

end Exact

/-- Of two indexes that know nothing under the scanned archive's name, the smaller one can be scanned
with exactly if the larger one can, and counts what it knows alike. Under the larger one those
signatures are counted that are counted when one of its archives alone is indexed. -/
theorem analyze_exact_splits_by_source (filings filings' : Filings) (archive : String)
    (classes : List ClassFile)
    (within : ∀ signature ∈ (MethodIndex.empty.fileAll filings).all,
      signature ∈ (MethodIndex.empty.fileAll filings').all)
    (unfiled : (MethodIndex.empty.fileAll filings).declaredIn archive = none)
    (unfiled' : (MethodIndex.empty.fileAll filings').declaredIn archive = none) :
    let index := MethodIndex.empty.fileAll filings
    let index' := MethodIndex.empty.fileAll filings'
    ((∃ counts, index.analyze .exact archive classes = .ok counts) ↔
      ∃ counts', index'.analyze .exact archive classes = .ok counts') ∧
    (∀ counts counts', index.analyze .exact archive classes = .ok counts →
      index'.analyze .exact archive classes = .ok counts' →
      ∀ signature ∈ index.all, counts.getD signature 0 = counts'.getD signature 0) ∧
    ∀ counts', index'.analyze .exact archive classes = .ok counts' →
      (∀ source methods, index'.declaredIn source = some methods →
        ∃ part, (MethodIndex.empty.insert source methods).analyze .exact archive classes =
          .ok part) ∧
      ∀ signature, signature ∈ counts' ↔
        ∃ source methods part, index'.declaredIn source = some methods ∧
          (MethodIndex.empty.insert source methods).analyze .exact archive classes = .ok part ∧
          signature ∈ part := by
  intro index index'
  refine ⟨?_, ?_, ?_⟩
  · rw [exists_analyze_exact_iff classes unfiled, exists_analyze_exact_iff classes unfiled']
  · intro counts counts' scanned scanned' signature indexed
    exact getD_eq_of_analyze_exact classes unfiled unfiled' scanned scanned' indexed
      (within signature indexed)
  · intro counts' scanned'
    exact mem_iff_exists_part classes (MethodIndex.consistent_empty.fileAll filings') unfiled'
      scanned'

/-- The archive of the called class, alone and beside that of its subclass. -/
def utilFilings : Filings := [("lib.jar", {"lib.Util#add(int, int)"})]

@[inherit_doc utilFilings]
def layeredFilings : Filings := utilFilings ++ [("mid.jar", {"app.MyUtil#add(int, int)"})]

/-- The subclass's archive adds a signature and leaves the other's calls as they are. -/
theorem analyze_exact_layered_by_source :
    (∀ signature ∈ (MethodIndex.empty.fileAll utilFilings).all,
      signature ∈ (MethodIndex.empty.fileAll layeredFilings).all) ∧
    ∃ counts counts' part : UsageCount,
      (MethodIndex.empty.fileAll utilFilings).analyze .exact "app.jar" inheritingClasses =
        .ok counts ∧
      (MethodIndex.empty.fileAll layeredFilings).analyze .exact "app.jar" inheritingClasses =
        .ok counts' ∧
      counts.getD "lib.Util#add(int, int)" 0 = counts'.getD "lib.Util#add(int, int)" 0 ∧
      (MethodIndex.empty.insert "mid.jar" {"app.MyUtil#add(int, int)"}).analyze .exact "app.jar"
        inheritingClasses = .ok part ∧
      "app.MyUtil#add(int, int)" ∈ part ∧ "app.MyUtil#add(int, int)" ∈ counts' := by
  have within : ∀ signature ∈ (MethodIndex.empty.fileAll utilFilings).all,
      signature ∈ (MethodIndex.empty.fileAll layeredFilings).all := by
    intro signature member
    have known : (MethodIndex.empty.fileAll utilFilings).all = {"lib.Util#add(int, int)"} := rfl
    obtain rfl : "lib.Util#add(int, int)" = signature := by simpa [known] using member
    decide
  have scanned : (MethodIndex.empty.fileAll utilFilings).analyze .exact "app.jar"
      inheritingClasses = .ok {("lib.Util#add(int, int)", 1)} := rfl
  have scanned' : (MethodIndex.empty.fileAll layeredFilings).analyze .exact "app.jar"
      inheritingClasses =
        .ok {("app.MyUtil#add(int, int)", 1), ("lib.Util#add(int, int)", 1)} := rfl
  have part : (MethodIndex.empty.insert "mid.jar" {"app.MyUtil#add(int, int)"}).analyze .exact
      "app.jar" inheritingClasses = .ok {("app.MyUtil#add(int, int)", 1)} := rfl
  obtain ⟨-, same, union⟩ := analyze_exact_splits_by_source utilFilings layeredFilings "app.jar"
    inheritingClasses within rfl rfl
  have member : "app.MyUtil#add(int, int)" ∈ ({("app.MyUtil#add(int, int)", 1)} : UsageCount) := by
    decide
  refine ⟨within, _, _, _, scanned, scanned', same _ _ scanned scanned' _ (by decide), part, member,
    ?_⟩
  exact ((union _ scanned').2 _).mpr ⟨"mid.jar", _, _, rfl, part, member⟩

end JarCensus
