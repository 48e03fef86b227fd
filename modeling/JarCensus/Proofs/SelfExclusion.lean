import JarCensus.MethodIndex.Archives
import JarCensus.Proofs.Counting
import JarCensus.Proofs.MethodIndex

/-! Which methods a scan leaves out as the archive's own. They are those of the last archive filed
under the scanned one's name, so another archive of that name takes its place. -/
namespace JarCensus

/-- A scan of classes that can be indexed is a count. What is filed under the archive's name stands
for its own methods. -/
theorem MethodIndex.analyze_eq_ok_iff (index : MethodIndex) (resolution : Resolution)
    (archive : String) (classes : List ClassFile) {declared : SignatureSet}
    (declares : declaredMethods classes = .ok declared) (counts : UsageCount) :
    index.analyze resolution archive classes = .ok counts ↔
      Resolves classes index.all (resolution.resolver classes) ∧
        Tallies ((index.declaredIn archive).getD declared) index.all
          (callCount classes index.all (resolution.resolver classes)) counts := by
  rw [analyze]
  cases index.declaredIn archive with
  | none =>
    simp only [declares, bind_eq_ok_iff, Except.ok.injEq, exists_eq_left', Option.getD_none]
    exact countUsage_eq_ok_iff ..
  | some own => exact countUsage_eq_ok_iff ..

theorem MethodIndex.exists_tallies_of_analyze {index : MethodIndex} {resolution : Resolution}
    {archive : String} {classes : List ClassFile} {counts : UsageCount}
    (analyzed : index.analyze resolution archive classes = .ok counts) :
    ∃ own, Tallies own index.all
      (callCount classes index.all (resolution.resolver classes)) counts := by
  rw [analyze] at analyzed
  cases filed : index.declaredIn archive with
  | none =>
    rw [filed] at analyzed
    obtain ⟨own, -, counted⟩ := (bind_eq_ok_iff ..).mp analyzed
    exact ⟨own, ((countUsage_eq_ok_iff ..).mp counted).2⟩
  | some own =>
    rw [filed] at analyzed
    exact ⟨own, ((countUsage_eq_ok_iff ..).mp analyzed).2⟩

theorem MethodIndex.analyzeArchive_eq_ok_iff (index : MethodIndex) (resolution : Resolution)
    {files : Workspace} {reader : Zip.Reader} {path : Path} {classes : List ClassFile}
    {declared : SignatureSet} (loaded : Archive.loadClasses files path reader = .ok classes)
    (declares : declaredMethods classes = .ok declared) (counts : UsageCount) :
    index.analyzeArchive files resolution path reader = .ok counts ↔
      Resolves classes index.all (resolution.resolver classes) ∧
        Tallies ((index.declaredIn (archiveKey path)).getD declared) index.all
          (callCount classes index.all (resolution.resolver classes)) counts := by
  rw [analyzeArchive, loaded, bind_eq_ok_iff]
  simp only [Except.ok.injEq, exists_eq_left', during_eq_ok_iff]
  exact index.analyze_eq_ok_iff resolution (archiveKey path) classes declares counts

theorem MethodIndex.insertArchive_eq_ok (index : MethodIndex) {files : Workspace}
    {reader : Zip.Reader} {path : Path} {classes : List ClassFile} {declared : SignatureSet}
    (loaded : Archive.loadClasses files path reader = .ok classes)
    (declares : declaredMethods classes = .ok declared) :
    index.insertArchive files path reader = .ok (index.insert (archiveKey path) declared) := by
  rw [insertArchive, bind_eq_ok_iff]
  refine ⟨declared, ?_, rfl⟩
  rw [declaredMethodsIn, bind_eq_ok_iff]
  exact ⟨classes, loaded, (during_eq_ok_iff ..).mpr declares⟩

/-- A scan reports none of the archive's own methods exactly if the set filed last under its name,
where there is one, has each of its own known methods that it calls. -/
theorem analyze_excludes_declared_iff (filings : Filings) (resolution : Resolution)
    (archive : String) (classes : List ClassFile) {declared : SignatureSet} {counts : UsageCount}
    (declares : declaredMethods classes = .ok declared)
    (analyzed : (MethodIndex.empty.fileAll filings).analyze resolution archive classes =
      .ok counts) :
    (∀ signature ∈ counts, signature ∉ declared) ↔
      ∀ filed, filings.last? archive = some filed →
        ∀ call ∈ invocations classes, ∀ target,
          (resolution.resolver classes).resolve (MethodIndex.empty.fileAll filings).all call =
              .ok target →
            target ∈ declared → target ∈ (MethodIndex.empty.fileAll filings).all →
              target ∈ filed := by
  rw [MethodIndex.analyze_eq_ok_iff _ _ _ _ declares] at analyzed
  obtain ⟨-, tallied⟩ := analyzed
  rw [MethodIndex.declaredIn_fileAll_empty] at tallied
  generalize MethodIndex.all _ = known at tallied ⊢
  simp only [tallied.mem_iff, callCount_pos_iff]
  constructor
  · intro excluded filed last call member target resolved own indexed
    rw [last, Option.getD_some] at excluded
    refine Decidable.byContradiction fun missing => ?_
    exact excluded target ⟨indexed, missing, call, member, resolved⟩ own
  · rintro covered signature ⟨indexed, missing, call, member, resolved⟩ own
    cases last : filings.last? archive with
    | none =>
      rw [last] at missing
      exact missing own
    | some filed =>
      rw [last] at missing
      exact missing (covered filed last call member signature resolved own indexed)

/-- A class with one method, which calls itself. -/
def recursiveUtil : ClassFile where
  minor := 0
  major := 52
  access := 0x21
  name := "lib.Util"
  superName := some "java.lang.Object"
  interfaces := []
  methods := [⟨"lib.Util", 0x09, "add", "(II)I",
    [.invocation ⟨.static, "lib.Util", "add", "(II)I"⟩]⟩]

/-- An archive without methods is filed under the name of the scanned one, and another archive
declares the method that the scanned one declares and calls. -/
theorem analyze_reports_declared :
    ∃ declared counts,
      declaredMethods [recursiveUtil] = .ok declared ∧
      (MethodIndex.empty.fileAll [("app.jar", ∅), ("lib.jar", {"lib.Util#add(int, int)"})]).analyze
        .exact "app.jar" [recursiveUtil] = .ok counts ∧
      ¬∀ signature ∈ counts, signature ∉ declared := by
  have declares : declaredMethods [recursiveUtil] = .ok {"lib.Util#add(int, int)"} := rfl
  have analyzed :
      (MethodIndex.empty.fileAll [("app.jar", ∅), ("lib.jar", {"lib.Util#add(int, int)"})]).analyze
        .exact "app.jar" [recursiveUtil] = .ok {("lib.Util#add(int, int)", 1)} := rfl
  refine ⟨_, _, declares, analyzed, ?_⟩
  rw [analyze_excludes_declared_iff _ _ _ _ declares analyzed]
  intro covered
  have filed : "lib.Util#add(int, int)" ∈ (∅ : SignatureSet) :=
    covered ∅ rfl ⟨.static, "lib.Util", "add", "(II)I"⟩ (.head _) _ rfl (by simp) (by decide)
  simp at filed

end JarCensus
