import JarCensus.CrossUsage
import JarCensus.Proofs.Comparison
import JarCensus.Proofs.FileSystem.Scan
import JarCensus.Proofs.Text.ByteOrder
import Mathlib.Data.List.Forall2

/-! What a cross usage reports. A report has one entry for each destination archive, and an entry is
made from the index of the sources and its own archive alone: neither the other destinations nor the
number of threads has a part in it. The list of used signatures is the report written out, so a
signature is in it as often as there are archives that use it. -/
namespace JarCensus

section Pointwise

variable {α β : Type}

theorem exists_forall₂_iff {related : α → β → Prop} (items : List α) :
    (∃ results, List.Forall₂ related items results) ↔
      ∀ item ∈ items, ∃ result, related item result := by
  induction items with
  | nil => exact iff_of_true ⟨[], .nil⟩ (by simp)
  | cons item items ih =>
    rw [List.forall_mem_cons, ← ih]
    constructor
    · intro ⟨results, pairs⟩
      cases pairs with
      | cons first others => exact ⟨⟨_, first⟩, _, others⟩
    · intro ⟨⟨result, first⟩, results, others⟩
      exact ⟨result :: results, .cons first others⟩

theorem map_eq_map_ok_iff (work : α → Except Failure β) (items : List α) (results : List β) :
    items.map work = results.map .ok ↔
      List.Forall₂ (fun item result => work item = .ok result) items results := by
  induction results generalizing items with
  | nil => simp
  | cons result results ih => cases items <;> simp [ih]

end Pointwise

namespace Workers

variable {α β : Type}

/-- One item leaves no choice, not even of a failure. -/
theorem gather_singleton (workers : Workers) (threads : Option Nat)
    (work : α → Except Failure β) (item : α) :
    workers.gather threads work [item] = (work item).map fun result => [result] := by
  cases outcome : work item with
  | ok result =>
    apply (workers.gather_eq_ok_iff ..).mpr
    simp [outcome]
  | error failure =>
    cases gathered : workers.gather threads work [item] with
    | ok results =>
      have results_nil := (workers.gather_eq_ok_iff ..).mp gathered
      cases results <;> simp [outcome] at results_nil
    | error other =>
      obtain ⟨found, member, failed⟩ := workers.gather_eq_error _ _ _ _ gathered
      obtain rfl := List.mem_singleton.mp member
      rw [outcome] at failed
      cases failed
      rfl

end Workers

section Archives

variable (files : Workspace) (reader : Zip.Reader)

/-- The archive can be loaded, and these are the methods that its classes declare. -/
def Declares (path : Path) (declared : SignatureSet) : Prop :=
  ∃ classes, Archive.loadClasses files path reader = .ok classes ∧
    declaredMethods classes = .ok declared

/-- The archive can be loaded, and a scan of its classes against `index` counts this. -/
def Counts (index : MethodIndex) (resolution : Resolution) (path : Path) (counts : UsageCount) :
    Prop :=
  ∃ classes, Archive.loadClasses files path reader = .ok classes ∧
    index.analyze resolution (archiveKey path) classes = .ok counts

/-- The entry of a report for the archive at `path`. -/
structure EntryOf (index : MethodIndex) (resolution : Resolution) (path : Path)
    (usage : ArchiveUsage) : Prop where
  archive : usage.archive = path.display
  counts : Counts files reader index resolution path usage.counts

theorem declaredMethodsIn_eq_ok_iff (path : Path) (declared : SignatureSet) :
    declaredMethodsIn files path reader = .ok declared ↔ Declares files reader path declared := by
  rw [declaredMethodsIn, bind_eq_ok_iff]
  simp only [during_eq_ok_iff]
  rfl

theorem archiveUsage_eq_ok_iff (index : MethodIndex) (resolution : Resolution) (path : Path)
    (usage : ArchiveUsage) :
    archiveUsage files reader index resolution path = .ok usage ↔
      EntryOf files reader index resolution path usage := by
  obtain ⟨archive, counts⟩ := usage
  simp only [archiveUsage, MethodIndex.analyzeArchive, bind_eq_ok_iff, during_eq_ok_iff, pure,
    Except.pure, Except.ok.injEq, ArchiveUsage.mk.injEq]
  constructor
  · rintro ⟨_, analyzed, rfl, rfl⟩
    exact ⟨rfl, analyzed⟩
  · rintro ⟨rfl, analyzed⟩
    exact ⟨counts, analyzed, rfl, rfl⟩

end Archives

section Filing

variable (files : Workspace) (reader : Zip.Reader)

/-- What an archive is filed as: its name and its methods. -/
def filing (path : Path) : Except Failure (String × SignatureSet) := do
  let methods ← declaredMethodsIn files path reader
  return (archiveKey path, methods)

theorem filing_eq_ok_iff (path : Path) (filed : String × SignatureSet) :
    filing files reader path = .ok filed ↔
      filed.1 = archiveKey path ∧ Declares files reader path filed.2 := by
  obtain ⟨name, methods⟩ := filed
  simp only [filing, bind_eq_ok_iff, declaredMethodsIn_eq_ok_iff, pure, Except.pure,
    Except.ok.injEq, Prod.mk.injEq]
  constructor
  · rintro ⟨_, declares, rfl, rfl⟩
    exact ⟨rfl, declares⟩
  · rintro ⟨rfl, declares⟩
    exact ⟨methods, declares, rfl, rfl⟩

theorem insertArchive_eq_ok_iff (index next : MethodIndex) (path : Path) :
    index.insertArchive files path reader = .ok next ↔
      ∃ filed, filing files reader path = .ok filed ∧ next = index.insert filed.1 filed.2 := by
  simp only [MethodIndex.insertArchive, filing, bind_eq_ok_iff, pure, Except.pure,
    Except.ok.injEq]
  constructor
  · rintro ⟨methods, declares, rfl⟩
    exact ⟨_, ⟨methods, declares, rfl⟩, rfl⟩
  · rintro ⟨_, ⟨methods, declares, rfl⟩, rfl⟩
    exact ⟨methods, declares, rfl⟩

theorem foldlM_insertArchive_eq_ok_iff (index built : MethodIndex) (paths : List Path) :
    paths.foldlM (fun index path => index.insertArchive files path reader) index = .ok built ↔
      ∃ filings : Filings, paths.map (filing files reader) = filings.map .ok ∧
        built = index.fileAll filings := by
  induction paths generalizing index with
  | nil =>
    simp only [List.foldlM_nil, pure, Except.pure, Except.ok.injEq, List.map_nil]
    constructor
    · intro unchanged
      exact ⟨[], rfl, unchanged.symm⟩
    · rintro ⟨filings, none, rfl⟩
      obtain rfl := List.map_eq_nil_iff.mp none.symm
      rfl
  | cons path paths ih =>
    simp only [List.foldlM_cons, bind_eq_ok_iff, insertArchive_eq_ok_iff, ih, List.map_cons]
    constructor
    · rintro ⟨_, ⟨filed, first, rfl⟩, filings, others, rfl⟩
      exact ⟨filed :: filings, by simp [first, others], rfl⟩
    · rintro ⟨filings, same, rfl⟩
      cases filings with
      | nil => simp at same
      | cons filed filings =>
        simp only [List.map_cons, List.cons.injEq] at same
        exact ⟨_, ⟨filed, same.1, rfl⟩, filings, same.2, rfl⟩

theorem build_eq_ok_iff (paths : List Path) (index : MethodIndex) :
    MethodIndex.build files paths reader = .ok index ↔
      ∃ filings : Filings, paths.map (filing files reader) = filings.map .ok ∧
        index = MethodIndex.empty.fileAll filings :=
  foldlM_insertArchive_eq_ok_iff ..

theorem exists_build_iff (paths : List Path) :
    (∃ index, MethodIndex.build files paths reader = .ok index) ↔
      ∀ path ∈ paths, ∃ declared, Declares files reader path declared := by
  have filings : (∃ filings : Filings, paths.map (filing files reader) = filings.map .ok) ↔
      ∀ path ∈ paths, ∃ declared, Declares files reader path declared := by
    simp only [map_eq_map_ok_iff, exists_forall₂_iff, filing_eq_ok_iff, Prod.exists,
      exists_eq_left, exists_and_left]
  rw [← filings]
  simp only [build_eq_ok_iff]
  constructor
  · intro ⟨index, filed, same, _⟩
    exact ⟨filed, same⟩
  · intro ⟨filed, same⟩
    exact ⟨_, filed, same, rfl⟩

/-- An index depends on its archives by what is loaded from them. -/
theorem build_unique {files files' : Workspace} {reader reader' : Zip.Reader} {paths : List Path}
    {index index' : MethodIndex}
    (same : ∀ path ∈ paths,
      Archive.loadClasses files' path reader' = Archive.loadClasses files path reader)
    (built : MethodIndex.build files paths reader = .ok index)
    (built' : MethodIndex.build files' paths reader' = .ok index') : index' = index := by
  obtain ⟨filings, filed, rfl⟩ := (build_eq_ok_iff ..).mp built
  obtain ⟨filings', filed', rfl⟩ := (build_eq_ok_iff ..).mp built'
  have unchanged : paths.map (filing files' reader') = paths.map (filing files reader) := by
    apply List.map_congr_left
    intro path member
    simp only [filing, declaredMethodsIn, same path member]
  have equal : filings' = filings := by
    apply (List.map_inj_right fun a b => Except.ok.inj).mp
    rw [← filed', ← filed, unchanged]
  rw [equal]

end Filing

theorem exists_find_of_isDirectory {files : Workspace} {dir : Path}
    (directory : files.isDirectory dir = true) : ∃ top, files.find dir = .ok (top, .directory) := by
  rw [Workspace.isDirectory] at directory
  cases outcome : files.find dir with
  | error failure => simp [outcome] at directory
  | ok found =>
    obtain ⟨top, object⟩ := found
    cases object with
    | directory => exact ⟨top, rfl⟩
    | file content => simp [outcome] at directory
    | link target => simp [outcome] at directory

/-- Only an error of the search itself keeps a directory from being scanned. -/
theorem exists_foreignError_of_scan {files : Workspace} {dir : Path} {walker : Walker}
    {failure : Failure} (directory : files.isDirectory dir = true)
    (failed : files.scan dir walker = .error failure) :
    ∃ error, failure = ⟨[.walk dir], .foreign error⟩ := by
  obtain ⟨top, found⟩ := exists_find_of_isDirectory directory
  obtain ⟨-, error, -, -, rfl⟩ := (Workspace.scan_eq_error_iff found walker failure).mp failed
  exact ⟨error, rfl⟩

section Report

/-- A report lists what is found at the destination, counted with the index of the sources. -/
theorem crossUsageReport_eq_ok_iff (files : Workspace) (sourceDir destDir : Path)
    (resolution : Resolution) (threads : Option Nat) (tools : Tools)
    (report : List ArchiveUsage) :
    crossUsageReport files sourceDir destDir resolution threads tools = .ok report ↔
      tools.workers.setUp threads = .ok () ∧
        ∃ sources index dests, files.scan sourceDir tools.walker = .ok sources ∧
          MethodIndex.build files sources tools.reader = .ok index ∧
          files.scan destDir tools.walker = .ok dests ∧
          List.Forall₂ (EntryOf files tools.reader index resolution) dests report := by
  simp only [crossUsageReport, bind_eq_ok_iff, Workers.gather_eq_ok_iff, map_eq_map_ok_iff,
    archiveUsage_eq_ok_iff]
  constructor
  · intro ⟨sources, sourcesFound, index, built, dests, destsFound, ⟨⟩, ready, entries⟩
    exact ⟨ready, sources, index, dests, sourcesFound, built, destsFound, entries⟩
  · intro ⟨ready, sources, index, dests, sourcesFound, built, destsFound, entries⟩
    exact ⟨sources, sourcesFound, index, built, dests, destsFound, (), ready, entries⟩

theorem exists_entries_iff (files : Workspace) (reader : Zip.Reader) (index : MethodIndex)
    (resolution : Resolution) (dests : List Path) :
    (∃ report, List.Forall₂ (EntryOf files reader index resolution) dests report) ↔
      ∀ path ∈ dests, ∃ counts, Counts files reader index resolution path counts := by
  rw [exists_forall₂_iff]
  refine forall₂_congr fun path _ => ?_
  constructor
  · intro ⟨usage, entry⟩
    exact ⟨usage.counts, entry.counts⟩
  · intro ⟨counts, counted⟩
    exact ⟨⟨path.display, counts⟩, rfl, counted⟩

theorem exists_crossUsageReport_iff (files : Workspace) (sourceDir destDir : Path)
    (resolution : Resolution) (threads : Option Nat) (tools : Tools) :
    (∃ report, crossUsageReport files sourceDir destDir resolution threads tools = .ok report) ↔
      tools.workers.setUp threads = .ok () ∧
        ∃ sources index dests, files.scan sourceDir tools.walker = .ok sources ∧
          MethodIndex.build files sources tools.reader = .ok index ∧
          files.scan destDir tools.walker = .ok dests ∧
          ∀ path ∈ dests, ∃ counts, Counts files tools.reader index resolution path counts := by
  simp only [crossUsageReport_eq_ok_iff, ← exists_entries_iff]
  constructor
  · intro ⟨report, ready, sources, index, dests, sourcesFound, built, destsFound, entries⟩
    exact ⟨ready, sources, index, dests, sourcesFound, built, destsFound, report, entries⟩
  · intro ⟨ready, sources, index, dests, sourcesFound, built, destsFound, report, entries⟩
    exact ⟨report, ready, sources, index, dests, sourcesFound, built, destsFound, entries⟩

end Report

section WrittenOut

/-- Byte order, which is the order of the characters as well. -/
def Precedes (a b : Signature) : Prop :=
  Text.Utf8.encode a.toList < Text.Utf8.encode b.toList

theorem UsageCount.signatures_ascend (counts : UsageCount) :
    counts.signatures.Pairwise Precedes := by
  refine Std.ExtTreeMap.ordered_keys.imp ?_
  intro a b smaller
  have less : a < b := compareOfLessAndEq_eq_lt.mp smaller
  exact Text.Utf8.encode_lt_encode less

/-- `used` is `report` written out, one archive after the other. -/
structure WritesOut (report : List ArchiveUsage) (used : List Signature) : Prop where
  joined : used = report.flatMap ArchiveUsage.signatures
  ascending : ∀ usage ∈ report, usage.signatures.Pairwise Precedes
  members : ∀ usage ∈ report, ∀ signature,
    signature ∈ usage.signatures ↔ 0 < usage.counts.getD signature 0
  multiplicity : ∀ signature,
    used.count signature = report.countP fun usage => 0 < usage.counts.getD signature 0

theorem count_flatMap_signatures (report : List ArchiveUsage) (signature : Signature) :
    (report.flatMap ArchiveUsage.signatures).count signature =
      report.countP fun usage => signature ∈ usage.counts := by
  induction report with
  | nil => rfl
  | cons usage report ih =>
    have once : usage.signatures.Nodup := Std.ExtTreeMap.nodup_keys
    have listed : signature ∈ usage.signatures ↔ signature ∈ usage.counts :=
      Std.ExtTreeMap.mem_keys
    rw [List.flatMap_cons, List.count_append, ih, once.count, List.countP_cons, Nat.add_comm]
    simp only [listed, decide_eq_true_eq]

theorem writesOut_flatMap {report : List ArchiveUsage}
    (positive : ∀ usage ∈ report, ∀ signature,
      signature ∈ usage.counts ↔ 0 < usage.counts.getD signature 0) :
    WritesOut report (report.flatMap ArchiveUsage.signatures) where
  joined := rfl
  ascending usage _ := usage.counts.signatures_ascend
  members usage member signature := Std.ExtTreeMap.mem_keys.trans (positive usage member signature)
  multiplicity signature := by
    rw [count_flatMap_signatures]
    apply List.countP_congr
    intro usage member
    simp only [decide_eq_true_eq, positive usage member signature]

end WrittenOut

section Aggregation

variable {files : Workspace} {reader : Zip.Reader} {index : MethodIndex} {resolution : Resolution}
  {path : Path} {counts : UsageCount} {usage usage' : ArchiveUsage} {dests : List Path}
  {report : List ArchiveUsage}

theorem Counts.mem_iff_getD_pos (counted : Counts files reader index resolution path counts)
    (signature : Signature) : signature ∈ counts ↔ 0 < counts.getD signature 0 := by
  obtain ⟨classes, -, analyzed⟩ := counted
  obtain ⟨own, tallied⟩ := MethodIndex.exists_tallies_of_analyze analyzed
  exact tallied.mem_iff_getD_pos signature

/-- An entry depends on the index and on what is loaded from its archive. -/
theorem EntryOf.unique {files' : Workspace} {reader' : Zip.Reader}
    (same : Archive.loadClasses files' path reader' = Archive.loadClasses files path reader)
    (entry : EntryOf files reader index resolution path usage)
    (entry' : EntryOf files' reader' index resolution path usage') : usage' = usage := by
  obtain ⟨archive, counts⟩ := usage
  obtain ⟨archive', counts'⟩ := usage'
  obtain ⟨rfl, classes, loaded, analyzed⟩ := entry
  obtain ⟨rfl, classes', loaded', analyzed'⟩ := entry'
  rw [same, loaded] at loaded'
  cases loaded'
  rw [analyzed] at analyzed'
  cases analyzed'
  rfl

theorem exists_entryOf_of_mem
    (entries : List.Forall₂ (EntryOf files reader index resolution) dests report)
    (member : usage ∈ report) :
    ∃ path ∈ dests, EntryOf files reader index resolution path usage := by
  induction entries with
  | nil => cases member
  | cons entry _ ih =>
    rcases List.mem_cons.mp member with rfl | later
    · exact ⟨_, .head _, entry⟩
    · obtain ⟨path, among, found⟩ := ih later
      exact ⟨path, .tail _ among, found⟩

/-- Two reports on the same sources agree about every archive that both have. -/
theorem entry_unique {files' : Workspace} {sources dests' : List Path} {sourceDir' destDir' : Path}
    {threads' : Option Nat} {tools' : Tools} {report' : List ArchiveUsage}
    (same : ∀ path ∈ sources,
      Archive.loadClasses files' path tools'.reader = Archive.loadClasses files path reader)
    (built : MethodIndex.build files sources reader = .ok index)
    (entries : List.Forall₂ (EntryOf files reader index resolution) dests report)
    (sourcesFound : files'.scan sourceDir' tools'.walker = .ok sources)
    (destsFound : files'.scan destDir' tools'.walker = .ok dests')
    (reported : crossUsageReport files' sourceDir' destDir' resolution threads' tools' =
      .ok report') (entry : (path, usage) ∈ dests.zip report)
    (entry' : (path, usage') ∈ dests'.zip report')
    (loads : Archive.loadClasses files' path tools'.reader =
      Archive.loadClasses files path reader) : usage' = usage := by
  obtain ⟨-, sources', index', dests₂, sourcesFound', built', destsFound', entries'⟩ :=
    (crossUsageReport_eq_ok_iff ..).mp reported
  obtain rfl : sources = sources' := Except.ok.inj (sourcesFound.symm.trans sourcesFound')
  obtain rfl : dests' = dests₂ := Except.ok.inj (destsFound.symm.trans destsFound')
  obtain rfl := build_unique same built built'
  exact EntryOf.unique loads (List.forall₂_zip entries entry) (List.forall₂_zip entries' entry')

/-- A cross usage of two directories succeeds exactly if the threads can be had, both directories
can be scanned, every source can be indexed and every destination analyzed. Only an error of the
search keeps a directory from being scanned. The report has an entry for each destination, in order,
which stays the same whatever the other destinations are, and the used signatures are the report
written out, on any number of threads. -/
theorem crossUsage_writes_out_report (files : Workspace) (sourceDir destDir : Path)
    (resolution : Resolution) (threads : Option Nat) (tools : Tools)
    (sourceExists : files.isDirectory sourceDir = true)
    (destExists : files.isDirectory destDir = true) :
    (∀ dir failure, dir = sourceDir ∨ dir = destDir →
      files.scan dir tools.walker = .error failure →
        ∃ error, failure = ⟨[.walk dir], .foreign error⟩) ∧
    ((∃ report, crossUsageReport files sourceDir destDir resolution threads tools = .ok report) ↔
      tools.workers.setUp threads = .ok () ∧
      ∃ sources dests, files.scan sourceDir tools.walker = .ok sources ∧
        files.scan destDir tools.walker = .ok dests ∧
        (∀ path ∈ sources, ∃ declared, Declares files tools.reader path declared) ∧
        ∀ index, MethodIndex.build files sources tools.reader = .ok index →
          ∀ path ∈ dests, ∃ counts, Counts files tools.reader index resolution path counts) ∧
    ∀ report, crossUsageReport files sourceDir destDir resolution threads tools = .ok report →
      ∃ sources index dests, files.scan sourceDir tools.walker = .ok sources ∧
        MethodIndex.build files sources tools.reader = .ok index ∧
        files.scan destDir tools.walker = .ok dests ∧
        List.Forall₂ (EntryOf files tools.reader index resolution) dests report ∧
        (∀ threads' workers', workers'.setUp threads' = .ok () →
          crossUsageReport files sourceDir destDir resolution threads'
            { tools with workers := workers' } = .ok report) ∧
        (∃ used, WritesOut report used ∧
          ∀ threads' workers', workers'.setUp threads' = .ok () →
            crossUsage files sourceDir destDir resolution threads'
              { tools with workers := workers' } = .ok used) ∧
        ∀ files' sourceDir' destDir' threads' tools' dests' report',
          files'.scan sourceDir' tools'.walker = .ok sources →
          files'.scan destDir' tools'.walker = .ok dests' →
          (∀ path ∈ sources, Archive.loadClasses files' path tools'.reader =
            Archive.loadClasses files path tools.reader) →
          crossUsageReport files' sourceDir' destDir' resolution threads' tools' = .ok report' →
          ∀ path usage usage', (path, usage) ∈ dests.zip report →
            (path, usage') ∈ dests'.zip report' →
            Archive.loadClasses files' path tools'.reader =
              Archive.loadClasses files path tools.reader →
            usage' = usage := by
  refine ⟨?_, ?_, ?_⟩
  · rintro dir failure (rfl | rfl)
    · exact exists_foreignError_of_scan sourceExists
    · exact exists_foreignError_of_scan destExists
  · rw [exists_crossUsageReport_iff]
    constructor
    · rintro ⟨ready, sources, index, dests, sourcesFound, built, destsFound, counted⟩
      refine ⟨ready, sources, dests, sourcesFound, destsFound,
        (exists_build_iff ..).mp ⟨index, built⟩, ?_⟩
      intro index' built'
      rw [built] at built'
      cases built'
      exact counted
    · rintro ⟨ready, sources, dests, sourcesFound, destsFound, declares, counted⟩
      obtain ⟨index, built⟩ := (exists_build_iff ..).mpr declares
      exact ⟨ready, sources, index, dests, sourcesFound, built, destsFound, counted index built⟩
  · intro report reported
    obtain ⟨-, reports⟩ := (crossUsageReport_eq_ok_iff ..).mp reported
    have again (threads' workers') (ready : workers'.setUp threads' = .ok ()) :
        crossUsageReport files sourceDir destDir resolution threads'
          { tools with workers := workers' } = .ok report :=
      (crossUsageReport_eq_ok_iff ..).mpr ⟨ready, reports⟩
    obtain ⟨sources, index, dests, sourcesFound, built, destsFound, entries⟩ := reports
    refine ⟨sources, index, dests, sourcesFound, built, destsFound, entries, again,
      ⟨report.flatMap ArchiveUsage.signatures, ?_, ?_⟩, ?_⟩
    · refine writesOut_flatMap fun usage member => ?_
      obtain ⟨path, -, entry⟩ := exists_entryOf_of_mem entries member
      exact entry.counts.mem_iff_getD_pos
    · intro threads' workers' ready
      rw [crossUsage, again threads' workers' ready]
      rfl
    · intro files' sourceDir' destDir' threads' tools' dests' report' sourcesFound' destsFound' same
        reported' path usage usage' entry entry' loads
      exact entry_unique same built entries sourcesFound' destsFound' reported' entry entry' loads

end Aggregation

/-- The archive `a/u.jar` of the called class, and `b/m.jar` of the class that calls it. -/
def separateNames : Workspace :=
  let jar (directory : UInt8) (name : UInt8) : Place :=
    [[directory], [name, 0x2E, 0x6A, 0x61, 0x72]]
  ⟨FileTree.empty.put [[0x61]] .directory
    |>.put (jar 0x61 0x75) (.file calleeArchive)
    |>.put [[0x62]] .directory
    |>.put (jar 0x62 0x6D) (.file callerArchive), []⟩

theorem separateNames_loads_callee :
    Archive.loadClasses separateNames (.ofString "a/u.jar") = .ok [callee] :=
  loads_calleeArchive rfl

theorem separateNames_loads_caller :
    Archive.loadClasses separateNames (.ofString "b/m.jar") = .ok [caller] :=
  loads_callerArchive rfl

theorem separateNames_scan_a :
    separateNames.scan (.ofString "a") = .ok [.ofString "a/u.jar"] :=
  (toOption_eq_some_iff _ _).mp (by decide +kernel)

theorem separateNames_scan_b :
    separateNames.scan (.ofString "b") = .ok [.ofString "b/m.jar"] :=
  (toOption_eq_some_iff _ _).mp (by decide +kernel)

theorem separateNames_build :
    MethodIndex.build separateNames [.ofString "a/u.jar"] =
      .ok (MethodIndex.empty.insert "u.jar" {"U#f()"}) := by
  have filed : filing separateNames .standard (.ofString "a/u.jar") = .ok ("u.jar", {"U#f()"}) :=
    (filing_eq_ok_iff ..).mpr ⟨by decide +kernel, [callee], separateNames_loads_callee, rfl⟩
  exact (build_eq_ok_iff ..).mpr ⟨[_], congrArg (fun filed => [filed]) filed, rfl⟩

theorem separateNames_entry :
    EntryOf separateNames .standard (MethodIndex.empty.insert "u.jar" {"U#f()"}) .hierarchy
      (.ofString "b/m.jar") ⟨"b/m.jar", {("U#f()", 1)}⟩ := by
  have name : archiveKey (.ofString "b/m.jar") = "m.jar" := by decide +kernel
  refine ⟨by decide +kernel, [caller], separateNames_loads_caller, ?_⟩
  rw [name]
  rfl

theorem separateNames_reports (threads : Option Nat) (workers : Workers)
    (ready : workers.setUp threads = .ok ()) :
    crossUsageReport separateNames (.ofString "a") (.ofString "b") .hierarchy threads
      { Tools.plain with workers := workers } = .ok [⟨"b/m.jar", {("U#f()", 1)}⟩] :=
  (crossUsageReport_eq_ok_iff ..).mpr ⟨ready, _, _, _, separateNames_scan_a, separateNames_build,
    separateNames_scan_b, .cons separateNames_entry .nil⟩

/-- The one use of the one destination, on two threads and on any other number. -/
theorem crossUsage_writes_out_separateNames :
    separateNames.isDirectory (.ofString "a") = true ∧
    separateNames.isDirectory (.ofString "b") = true ∧
    ∃ report used,
      crossUsageReport separateNames (.ofString "a") (.ofString "b") .hierarchy (some 2) .plain =
        .ok report ∧
      report.map ArchiveUsage.archive = ["b/m.jar"] ∧
      WritesOut report used ∧ used.count "U#f()" = 1 ∧
      ∀ threads workers, workers.setUp threads = .ok () →
        crossUsage separateNames (.ofString "a") (.ofString "b") .hierarchy threads
          { Tools.plain with workers := workers } = .ok used := by
  have sourceExists : separateNames.isDirectory (.ofString "a") = true := by decide +kernel
  have destExists : separateNames.isDirectory (.ofString "b") = true := by decide +kernel
  refine ⟨sourceExists, destExists, ?_⟩
  obtain ⟨-, -, reports⟩ :=
    crossUsage_writes_out_report separateNames (.ofString "a") (.ofString "b") .hierarchy (some 2)
      .plain sourceExists destExists
  have reported := separateNames_reports (some 2) .inOrder rfl
  obtain ⟨_, _, _, -, -, -, -, -, ⟨used, written, everywhere⟩, -⟩ := reports _ reported
  exact ⟨_, used, reported, rfl, written, written.multiplicity "U#f()", everywhere⟩

end JarCensus
