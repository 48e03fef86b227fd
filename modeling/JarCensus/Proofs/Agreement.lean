import JarCensus.Proofs.CrossUsage

/-! Directories with one archive each. A cross usage of them and a comparison of the two archives go
through one and the same count, and differ only in how they list it. -/
namespace JarCensus

/-- How often `dest` calls each method declared in `source`. -/
def pairUsage (files : Workspace) (reader : Zip.Reader) (source dest : Path)
    (resolution : Resolution) : Except Failure UsageCount := do
  let index ← MethodIndex.empty.insertArchive files source reader
  index.analyzeArchive files resolution dest reader

theorem compareArchives_eq_map_pairUsage (files : Workspace) (reader : Zip.Reader)
    (source dest : Path) (resolution : Resolution) :
    compareArchives files source dest resolution reader =
      (pairUsage files reader source dest resolution).map UsageCount.ranked := by
  rw [compareArchives, pairUsage]
  cases MethodIndex.empty.insertArchive files source reader with
  | error failure => rfl
  | ok index =>
    simp only [bind, Except.bind]
    cases index.analyzeArchive files resolution dest reader <;> rfl

theorem build_singleton (files : Workspace) (reader : Zip.Reader) (path : Path) :
    MethodIndex.build files [path] reader =
      MethodIndex.empty.insertArchive files path reader := by
  rw [MethodIndex.build, List.foldlM_cons]
  cases MethodIndex.empty.insertArchive files path reader <;> rfl

section Singletons

variable {files : Workspace} {sourceDir destDir source dest : Path}

theorem crossUsage_eq_map_pairUsage (resolution : Resolution) (threads : Option Nat)
    (tools : Tools) (ready : tools.workers.setUp threads = .ok ())
    (sourceFound : files.scan sourceDir tools.walker = .ok [source])
    (destFound : files.scan destDir tools.walker = .ok [dest]) :
    crossUsage files sourceDir destDir resolution threads tools =
      (pairUsage files tools.reader source dest resolution).map UsageCount.signatures := by
  rw [crossUsage, crossUsageReport, sourceFound, destFound, ready, pairUsage]
  simp only [bind, Except.bind, build_singleton, Workers.gather_singleton, archiveUsage]
  cases MethodIndex.empty.insertArchive files source tools.reader with
  | error failure => rfl
  | ok index =>
    dsimp only
    cases index.analyzeArchive files resolution dest tools.reader with
    | error failure => rfl
    | ok counts => exact congrArg Except.ok (List.append_nil counts.signatures)

/-- Both lists of a count have the same signatures. -/
theorem signatures_perm_ranked (counts : UsageCount) :
    counts.signatures.Perm (counts.ranked.map MethodUsage.signature) := by
  have sorted : counts.ranked.Perm (counts.toList.map fun entry => ⟨entry.1, entry.2⟩) :=
    List.mergeSort_perm _ _
  have keys : (counts.toList.map fun entry => (⟨entry.1, entry.2⟩ : MethodUsage)).map
      MethodUsage.signature = counts.signatures := by
    rw [List.map_map]
    exact Std.ExtTreeMap.map_fst_toList_eq_keys
  rw [← keys]
  exact (sorted.map MethodUsage.signature).symm

/-- On threads that can be had, a cross usage of two directories with one archive each succeeds
exactly if the comparison of these archives does. It lists the same signatures, each once, but in
byte order, and where the one fails the other fails alike. -/
theorem crossUsage_agrees_with_compareArchives (resolution : Resolution) (threads : Option Nat)
    (tools : Tools) (ready : tools.workers.setUp threads = .ok ())
    (sourceFound : files.scan sourceDir tools.walker = .ok [source])
    (destFound : files.scan destDir tools.walker = .ok [dest]) :
    ((∃ used, crossUsage files sourceDir destDir resolution threads tools = .ok used) ↔
      ∃ usages, compareArchives files source dest resolution tools.reader = .ok usages) ∧
    (∀ used usages, crossUsage files sourceDir destDir resolution threads tools = .ok used →
      compareArchives files source dest resolution tools.reader = .ok usages →
      used.Perm (usages.map MethodUsage.signature) ∧ used.Pairwise Precedes ∧ used.Nodup) ∧
    ∀ failure, crossUsage files sourceDir destDir resolution threads tools = .error failure ↔
      compareArchives files source dest resolution tools.reader = .error failure := by
  rw [crossUsage_eq_map_pairUsage resolution threads tools ready sourceFound destFound,
    compareArchives_eq_map_pairUsage]
  cases pairUsage files tools.reader source dest resolution with
  | error failure => simp [Except.map]
  | ok counts =>
    refine ⟨iff_of_true ⟨_, rfl⟩ ⟨_, rfl⟩, ?_, fun failure => iff_of_false nofun nofun⟩
    intro used usages listed ranked
    cases listed
    cases ranked
    exact ⟨signatures_perm_ranked counts, counts.signatures_ascend, Std.ExtTreeMap.nodup_keys⟩

/-- A use that the comparison ranks and the cross usage lists. -/
theorem crossUsage_agrees_on_separateNames :
    ∃ used usages,
      crossUsage separateNames (.ofString "a") (.ofString "b") .hierarchy (some 3) .plain =
        .ok used ∧
      compareArchives separateNames (.ofString "a/u.jar") (.ofString "b/m.jar") .hierarchy =
        .ok usages ∧
      used.Perm (usages.map MethodUsage.signature) ∧ "U#f()" ∈ used := by
  have reported := separateNames_reports (some 3) .inOrder rfl
  have listed : crossUsage separateNames (.ofString "a") (.ofString "b") .hierarchy (some 3)
      .plain = .ok ["U#f()"] := (bind_eq_ok_iff ..).mpr ⟨_, reported, rfl⟩
  obtain ⟨succeed, agree, -⟩ := crossUsage_agrees_with_compareArchives .hierarchy (some 3)
    .plain rfl separateNames_scan_a separateNames_scan_b
  obtain ⟨usages, ranked⟩ := succeed.mp ⟨_, listed⟩
  exact ⟨_, usages, listed, ranked, (agree _ _ listed ranked).1, .head _⟩

end Singletons

end JarCensus
