import JarCensus.Proofs.CrossUsage
import JarCensus.Proofs.FileSystem.Scan

/-! A directory against itself. If no two of its archives have one name, then each finds its own
methods in the index, and what it is counted with are its calls of the others' methods. -/
namespace JarCensus

/-- What the archives at `paths` declare, each and all together. -/
structure DeclaresAll (paths : List Path) (classes : Path → List ClassFile)
    (declared : Path → SignatureSet) (known : SignatureSet) : Prop where
  each : ∀ path ∈ paths, declaredMethods (classes path) = .ok (declared path)
  all : ∀ signature, signature ∈ known ↔ ∃ path ∈ paths, signature ∈ declared path

/-- Only others can declare what one archive does not. -/
theorem DeclaresAll.foreign_iff {paths : List Path} {classes : Path → List ClassFile}
    {declared : Path → SignatureSet} {known : SignatureSet}
    (declares : DeclaresAll paths classes declared known) (path : Path) (signature : Signature) :
    signature ∈ known ∧ signature ∉ declared path ↔
      signature ∉ declared path ∧
        ∃ other ∈ paths, other ≠ path ∧ signature ∈ declared other := by
  rw [declares.all, and_comm]
  refine and_congr_right fun foreign => ?_
  constructor
  · intro ⟨other, member, declared_other⟩
    have different : other ≠ path := by
      rintro rfl
      exact foreign declared_other
    exact ⟨other, member, different, declared_other⟩
  · intro ⟨other, member, _, declared_other⟩
    exact ⟨other, member, declared_other⟩

/-- The filings of archives with known methods. -/
def filingsOf (paths : List Path) (declared : Path → SignatureSet) : Filings :=
  paths.map fun path => (archiveKey path, declared path)

section FilingsOf

variable {paths : List Path} {declared : Path → SignatureSet}

theorem last?_filingsOf_eq_some_iff (distinct : (paths.map archiveKey).Nodup) (archive : String)
    (methods : SignatureSet) :
    (filingsOf paths declared).last? archive = some methods ↔
      ∃ path ∈ paths, archiveKey path = archive ∧ declared path = methods := by
  have names : (filingsOf paths declared).map Prod.fst = paths.map archiveKey := by
    simp [filingsOf]
  rw [Filings.last?_eq_some_iff (names ▸ distinct)]
  simp [filingsOf]

theorem declaredIn_fileAll_filingsOf (distinct : (paths.map archiveKey).Nodup) {path : Path}
    (member : path ∈ paths) :
    (MethodIndex.empty.fileAll (filingsOf paths declared)).declaredIn (archiveKey path) =
      some (declared path) := by
  rw [MethodIndex.declaredIn_fileAll_empty]
  exact (last?_filingsOf_eq_some_iff distinct _ _).mpr ⟨path, member, rfl, rfl⟩

theorem mem_all_fileAll_filingsOf_iff (distinct : (paths.map archiveKey).Nodup)
    (signature : Signature) :
    signature ∈ (MethodIndex.empty.fileAll (filingsOf paths declared)).all ↔
      ∃ path ∈ paths, signature ∈ declared path := by
  rw [MethodIndex.mem_all_fileAll_empty_iff]
  simp only [last?_filingsOf_eq_some_iff distinct]
  constructor
  · rintro ⟨archive, methods, ⟨path, member, rfl, rfl⟩, declares⟩
    exact ⟨path, member, declares⟩
  · intro ⟨path, member, declares⟩
    exact ⟨_, _, ⟨path, member, rfl, rfl⟩, declares⟩

end FilingsOf

section SelfUsage

variable {files : Workspace} {reader : Zip.Reader} {dir : Path} {paths : List Path}
  {classes : Path → List ClassFile} {declared : Path → SignatureSet} {known : SignatureSet}
  {index : MethodIndex}

theorem DeclaresAll.build_eq_ok (declares : DeclaresAll paths classes declared known)
    (loaded : ∀ path ∈ paths, Archive.loadClasses files path reader = .ok (classes path)) :
    MethodIndex.build files paths reader =
      .ok (MethodIndex.empty.fileAll (filingsOf paths declared)) := by
  refine (build_eq_ok_iff ..).mpr ⟨_, ?_, rfl⟩
  rw [filingsOf, List.map_map]
  apply List.map_congr_left
  intro path member
  exact (filing_eq_ok_iff ..).mpr
    ⟨rfl, classes path, loaded path member, declares.each path member⟩

/-- The index of archives with distinct names has what each declares and what all declare. -/
theorem DeclaresAll.index_eq (declares : DeclaresAll paths classes declared known)
    (loaded : ∀ path ∈ paths, Archive.loadClasses files path reader = .ok (classes path))
    (distinct : (paths.map archiveKey).Nodup)
    (built : MethodIndex.build files paths reader = .ok index) :
    index.all = known ∧
      ∀ path ∈ paths, index.declaredIn (archiveKey path) = some (declared path) := by
  rw [declares.build_eq_ok loaded] at built
  cases built
  refine ⟨?_, fun path => declaredIn_fileAll_filingsOf distinct⟩
  apply Std.ExtTreeSet.ext_mem
  intro signature
  rw [mem_all_fileAll_filingsOf_iff distinct, declares.all]

/-- If all archives can be indexed, their methods can be told. -/
theorem exists_declaresAll
    (loaded : ∀ path ∈ paths, Archive.loadClasses files path reader = .ok (classes path))
    (distinct : (paths.map archiveKey).Nodup)
    (built : MethodIndex.build files paths reader = .ok index) :
    ∃ declared known, DeclaresAll paths classes declared known := by
  let declared (path : Path) : SignatureSet :=
    (declaredMethods (classes path)).toOption.getD ∅
  refine ⟨declared, (MethodIndex.empty.fileAll (filingsOf paths declared)).all, ?_,
    mem_all_fileAll_filingsOf_iff distinct⟩
  intro path member
  obtain ⟨methods, _, loads, declares⟩ :=
    (exists_build_iff files reader paths).mp ⟨index, built⟩ path member
  rw [loaded path member] at loads
  cases loads
  simp only [declared, declares]
  rfl

theorem DeclaresAll.counts_iff (declares : DeclaresAll paths classes declared known)
    (loaded : ∀ path ∈ paths, Archive.loadClasses files path reader = .ok (classes path))
    (distinct : (paths.map archiveKey).Nodup)
    (built : MethodIndex.build files paths reader = .ok index) (resolution : Resolution)
    {path : Path} (member : path ∈ paths) (counts : UsageCount) :
    Counts files reader index resolution path counts ↔
      Resolves (classes path) known (resolution.resolver (classes path)) ∧
        Tallies (declared path) known
          (callCount (classes path) known (resolution.resolver (classes path))) counts := by
  obtain ⟨all, filed⟩ := declares.index_eq loaded distinct built
  simp only [Counts, loaded path member, Except.ok.injEq, exists_eq_left']
  rw [index.analyze_eq_ok_iff resolution _ _ (declares.each path member), filed path member, all,
    Option.getD_some]

/-- A directory whose archives can be loaded and have distinct names is reported against itself
exactly if the threads can be had, all declarations can be indexed and all calls resolved. An
archive is then counted with its calls of what another archive declares and it does not, and with
nothing else. -/
theorem crossUsageReport_self_counts_foreign_calls (resolution : Resolution)
    (threads : Option Nat) (tools : Tools) (found : files.scan dir tools.walker = .ok paths)
    (loaded : ∀ path ∈ paths, Archive.loadClasses files path tools.reader = .ok (classes path))
    (distinct : (paths.map archiveKey).Nodup) :
    ((∃ report, crossUsageReport files dir dir resolution threads tools = .ok report) ↔
      tools.workers.setUp threads = .ok () ∧
      ∃ declared known, DeclaresAll paths classes declared known ∧
        ∀ path ∈ paths, Resolves (classes path) known (resolution.resolver (classes path))) ∧
    ∀ report declared known,
      crossUsageReport files dir dir resolution threads tools = .ok report →
      DeclaresAll paths classes declared known →
        List.Forall₂ (fun path usage => usage.archive = path.display ∧
          ∀ signature n, usage.counts[signature]? = some n ↔
            signature ∉ declared path ∧
            (∃ other ∈ paths, other ≠ path ∧ signature ∈ declared other) ∧
            n = callCount (classes path) known (resolution.resolver (classes path)) signature ∧
            1 ≤ n) paths report := by
  constructor
  · rw [exists_crossUsageReport_iff]
    refine and_congr_right fun _ => ?_
    simp only [found, Except.ok.injEq, exists_and_left, exists_eq_left']
    constructor
    · intro ⟨index, built, counted⟩
      obtain ⟨declared, known, declares⟩ := exists_declaresAll loaded distinct built
      refine ⟨declared, known, declares, ?_⟩
      intro path member
      obtain ⟨counts, counts_path⟩ := counted path member
      exact ((declares.counts_iff loaded distinct built resolution member counts).mp counts_path).1
    · intro ⟨declared, known, declares, resolves⟩
      have built := declares.build_eq_ok loaded
      refine ⟨_, built, ?_⟩
      intro path member
      obtain ⟨counts, tallied⟩ := exists_tallies (declared path) (resolves path member)
      exact ⟨counts, (declares.counts_iff loaded distinct built resolution member counts).mpr
        ⟨resolves path member, tallied⟩⟩
  · intro report declared known reported declares
    obtain ⟨-, sources, index, dests, found', built, found'', entries⟩ :=
      (crossUsageReport_eq_ok_iff ..).mp reported
    obtain rfl : paths = sources := Except.ok.inj (found.symm.trans found')
    obtain rfl : paths = dests := Except.ok.inj (found.symm.trans found'')
    refine List.forall₂_iff_zip.mpr ⟨entries.length_eq, ?_⟩
    intro path usage pair
    have entry := List.forall₂_zip entries pair
    have member : path ∈ paths := (List.of_mem_zip pair).1
    obtain ⟨-, tallied⟩ := (declares.counts_iff loaded distinct built resolution member
      usage.counts).mp entry.counts
    refine ⟨entry.archive, ?_⟩
    intro signature n
    rw [tallied.getElem?_eq_some_iff, ← and_assoc, declares.foreign_iff, and_assoc]

end SelfUsage

theorem separateNames_scan_all : separateNames.scan (.ofString ".") =
    .ok [.ofString "./a/u.jar", .ofString "./b/m.jar"] :=
  Workspace.scan_eq_ok_of_sorted rfl .inOrder (by decide +kernel) (by decide +kernel)

/-- The class of either archive, and what it declares. -/
def separateClasses (path : Path) : List ClassFile :=
  if path = .ofString "./a/u.jar" then [callee] else [caller]

@[inherit_doc separateClasses]
def separateMethods (path : Path) : SignatureSet :=
  if path = .ofString "./a/u.jar" then {"U#f()"} else {"M#f()"}

theorem separateClasses_caller : separateClasses (.ofString "./b/m.jar") = [caller] :=
  if_neg (by decide +kernel)

theorem separateMethods_callee : separateMethods (.ofString "./a/u.jar") = {"U#f()"} := if_pos rfl

theorem separateMethods_caller : separateMethods (.ofString "./b/m.jar") = {"M#f()"} :=
  if_neg (by decide +kernel)

theorem separateNames_declaresAll :
    DeclaresAll [.ofString "./a/u.jar", .ofString "./b/m.jar"] separateClasses separateMethods
      {"U#f()", "M#f()"} := by
  constructor
  · refine List.forall_mem_cons.mpr ⟨rfl, List.forall_mem_singleton.mpr ?_⟩
    rw [separateClasses_caller, separateMethods_caller]
    rfl
  · intro signature
    simp [separateMethods_callee, separateMethods_caller]

theorem separateNames_resolves :
    ∀ path ∈ [Path.ofString "./a/u.jar", .ofString "./b/m.jar"],
      Resolves (separateClasses path) {"U#f()", "M#f()"}
        (Resolution.hierarchy.resolver (separateClasses path)) := by
  refine List.forall_mem_cons.mpr ⟨nofun, List.forall_mem_singleton.mpr ?_⟩
  rw [separateClasses_caller]
  intro call member
  obtain rfl : call = ⟨.static, "U", "f", "()V"⟩ := List.mem_singleton.mp member
  exact ⟨"U#f()", rfl⟩

/-- The second archive is counted with its one call of the first one's method. -/
theorem crossUsageReport_separateNames_counts_foreign_calls :
    ∃ report usage,
      crossUsageReport separateNames (.ofString ".") (.ofString ".") .hierarchy none .plain =
        .ok report ∧
      usage ∈ report ∧ usage.archive = "./b/m.jar" ∧
      usage.counts["U#f()"]? = some 1 := by
  have loaded : ∀ path ∈ [Path.ofString "./a/u.jar", .ofString "./b/m.jar"],
      Archive.loadClasses separateNames path = .ok (separateClasses path) := by
    refine List.forall_mem_cons.mpr ⟨?_, List.forall_mem_singleton.mpr ?_⟩
    · exact loads_calleeArchive rfl
    · rw [separateClasses_caller]
      exact loads_callerArchive rfl
  have distinct : ([Path.ofString "./a/u.jar", .ofString "./b/m.jar"].map archiveKey).Nodup := by
    decide +kernel
  obtain ⟨succeeds, entries⟩ := crossUsageReport_self_counts_foreign_calls .hierarchy none
    .plain separateNames_scan_all loaded distinct
  obtain ⟨report, reported⟩ :=
    succeeds.mpr ⟨rfl, _, _, separateNames_declaresAll, separateNames_resolves⟩
  have listed := entries report _ _ reported separateNames_declaresAll
  obtain ⟨first, others, -, listed', rfl⟩ := List.forall₂_cons_left_iff.mp listed
  obtain ⟨usage, rest, ⟨archive, counted⟩, -, rfl⟩ := List.forall₂_cons_left_iff.mp listed'
  have name : (Path.ofString "./b/m.jar").display = "./b/m.jar" := by decide +kernel
  refine ⟨_, usage, reported, by simp, archive.trans name, ?_⟩
  rw [counted, separateClasses_caller, separateMethods_caller]
  refine ⟨by decide, ⟨.ofString "./a/u.jar", .head _, by decide +kernel, ?_⟩, by decide, by decide⟩
  simp [separateMethods_callee]

end JarCensus
