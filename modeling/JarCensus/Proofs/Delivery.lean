import JarCensus.Program
import JarCensus.Proofs.FileSystem.Saving
import JarCensus.Proofs.Report

/-! What a run of an analysis leaves behind. Printing and writing come after the last step of the
analysis that can fail, so a failed analysis leaves nothing at all, and a successful one its whole
result in the one place that was asked for. -/
namespace JarCensus

theorem Declares.unique {files : Workspace} {reader : Zip.Reader} {path : Path}
    {declared declared' : SignatureSet} (declares : Declares files reader path declared)
    (declares' : Declares files reader path declared') : declared' = declared := by
  rw [← declaredMethodsIn_eq_ok_iff] at declares declares'
  rw [declares] at declares'
  cases declares'
  rfl

namespace Program

open Workspace (Extends Makes)

/-- A step of a comparison fails. -/
inductive CompareFails (files : Workspace) (reader : Zip.Reader) (source dest : Path)
    (resolution : Resolution) : Prop
  | notFile (path : Path) (argument : path = source ∨ path = dest)
    (refused : ¬files.isFile path = true)
  | notIndexed (undeclared : ∀ declared, ¬Declares files reader source declared)
  | notScanned (declared : SignatureSet) (declares : Declares files reader source declared)
    (uncounted : ∀ counts, ¬Counts files reader
      (MethodIndex.empty.insert (archiveKey source) declared) resolution dest counts)

/-- A step of a cross usage fails: with one of its arguments, with a scan of one, with one of the
sources, with the threads, or, all sources being indexed, with one of the destinations. -/
inductive CrossUsageFails (files : Workspace) (tools : Tools) (sourceDir destDir : Path)
    (threads : Option Nat) (resolution : Resolution) : Prop
  | notDirectory (path : Path) (argument : path = sourceDir ∨ path = destDir)
    (refused : ¬files.isDirectory path = true)
  | notListed (path : Path) (argument : path = sourceDir ∨ path = destDir)
    (unlisted : ∀ paths, files.scan path tools.walker ≠ .ok paths)
  | notIndexed (sources : List Path)
    (sourcesFound : files.scan sourceDir tools.walker = .ok sources)
    (path : Path) (member : path ∈ sources)
    (undeclared : ∀ declared, ¬Declares files tools.reader path declared)
  | notThreaded (unready : tools.workers.setUp threads ≠ .ok ())
  | notScanned (sources : List Path)
    (sourcesFound : files.scan sourceDir tools.walker = .ok sources)
    (index : MethodIndex) (built : MethodIndex.build files sources tools.reader = .ok index)
    (dests : List Path) (destsFound : files.scan destDir tools.walker = .ok dests)
    (path : Path) (member : path ∈ dests)
    (uncounted : ∀ counts, ¬Counts files tools.reader index resolution path counts)

/-- A step of the analysis that a command asks for fails. -/
def AnalysisFails (files : Workspace) (tools : Tools) : Command → Prop
  | .compare source dest _ resolution => CompareFails files tools.reader source dest resolution
  | .crossUsage sourceDir destDir _ threads resolution =>
    CrossUsageFails files tools sourceDir destDir threads resolution
  | .check _ _ => False

theorem requireFile_eq_ok_iff (files : Workspace) (path : Path) :
    requireFile files path = .ok () ↔ files.isFile path = true := by
  rw [requireFile]
  by_cases file : files.isFile path = true <;> simp [file]

theorem requireDirectory_eq_ok_iff (files : Workspace) (path : Path) :
    requireDirectory files path = .ok () ↔ files.isDirectory path = true := by
  rw [requireDirectory]
  by_cases directory : files.isDirectory path = true <;> simp [directory]

section Compare

variable {files : Workspace} {reader : Zip.Reader} {source dest : Path} {resolution : Resolution}

theorem exists_compareArchives_iff :
    (∃ usages, compareArchives files source dest resolution reader = .ok usages) ↔
      ∃ declared, Declares files reader source declared ∧
        ∃ counts, Counts files reader (MethodIndex.empty.insert (archiveKey source) declared)
          resolution dest counts := by
  simp only [compareArchives, MethodIndex.insertArchive, MethodIndex.analyzeArchive,
    bind_eq_ok_iff, during_eq_ok_iff, declaredMethodsIn_eq_ok_iff, pure, Except.pure,
    Except.ok.injEq]
  constructor
  · rintro ⟨_, _, ⟨declared, declares, rfl⟩, counts, counted, rfl⟩
    exact ⟨declared, declares, counts, counted⟩
  · rintro ⟨declared, declares, counts, counted⟩
    exact ⟨_, _, ⟨declared, declares, rfl⟩, counts, counted, rfl⟩

theorem exists_compareOutput_iff (format : OutputFormat) :
    (∃ text, compareOutput files source dest format resolution reader = .ok text) ↔
      files.isFile source = true ∧ files.isFile dest = true ∧
        ∃ usages, compareArchives files source dest resolution reader = .ok usages := by
  simp only [compareOutput, bind_eq_ok_iff]
  constructor
  · rintro ⟨_, ⟨⟩, sourceFile, ⟨⟩, destFile, usages, compared, -⟩
    rw [requireFile_eq_ok_iff] at sourceFile destFile
    exact ⟨sourceFile, destFile, usages, compared⟩
  · rintro ⟨sourceFile, destFile, usages, compared⟩
    rw [← requireFile_eq_ok_iff] at sourceFile destFile
    cases format with
    | text => exact ⟨_, (), sourceFile, (), destFile, usages, compared, rfl⟩
    | json => exact ⟨_, (), sourceFile, (), destFile, usages, compared, rfl⟩

/-- The steps are all there is: if none of them fails there is something to print. -/
theorem compareFails_iff (format : OutputFormat) :
    CompareFails files reader source dest resolution ↔
      ¬∃ text, compareOutput files source dest format resolution reader = .ok text := by
  rw [exists_compareOutput_iff, exists_compareArchives_iff]
  constructor
  · rintro fails ⟨sourceFile, destFile, declared, declares, counts, counted⟩
    cases fails with
    | notFile path argument refused =>
      rcases argument with rfl | rfl
      · exact refused sourceFile
      · exact refused destFile
    | notIndexed undeclared => exact undeclared declared declares
    | notScanned declared' declares' uncounted =>
      obtain rfl := declares.unique declares'
      exact uncounted counts counted
  · intro none
    by_cases sourceFile : files.isFile source = true
    · by_cases destFile : files.isFile dest = true
      · by_cases indexed : ∃ declared, Declares files reader source declared
        · obtain ⟨declared, declares⟩ := indexed
          refine .notScanned declared declares fun counts counted => none ?_
          exact ⟨sourceFile, destFile, declared, declares, counts, counted⟩
        · exact .notIndexed (not_exists.mp indexed)
      · exact .notFile dest (.inr rfl) destFile
    · exact .notFile source (.inl rfl) sourceFile

end Compare

section CrossUsage

variable {files : Workspace} {tools : Tools} {sourceDir destDir : Path} {threads : Option Nat}
  {resolution : Resolution}

theorem exists_crossUsageOutput_iff :
    (∃ text, crossUsageOutput files sourceDir destDir threads resolution tools = .ok text) ↔
      files.isDirectory sourceDir = true ∧ files.isDirectory destDir = true ∧
        ∃ report, crossUsageReport files sourceDir destDir resolution threads tools =
          .ok report := by
  simp only [crossUsageOutput, crossUsage, bind_eq_ok_iff, pure, Except.pure, Except.ok.injEq]
  constructor
  · rintro ⟨_, ⟨⟩, sourceExists, ⟨⟩, destExists, _, ⟨report, reported, rfl⟩, rfl⟩
    rw [requireDirectory_eq_ok_iff] at sourceExists destExists
    exact ⟨sourceExists, destExists, report, reported⟩
  · rintro ⟨sourceExists, destExists, report, reported⟩
    rw [← requireDirectory_eq_ok_iff] at sourceExists destExists
    exact ⟨_, (), sourceExists, (), destExists, _, ⟨report, reported, rfl⟩, rfl⟩

/-- A failed step leaves nothing to print. -/
theorem CrossUsageFails.not_crossUsageOutput
    (fails : CrossUsageFails files tools sourceDir destDir threads resolution) :
    ¬∃ text, crossUsageOutput files sourceDir destDir threads resolution tools = .ok text := by
  rw [exists_crossUsageOutput_iff]
  rintro ⟨sourceExists, destExists, reported⟩
  obtain ⟨ready, sources, index, dests, sourcesFound, built, destsFound, counted⟩ :=
    (exists_crossUsageReport_iff ..).mp reported
  cases fails with
  | notDirectory path argument refused =>
    rcases argument with rfl | rfl
    · exact refused sourceExists
    · exact refused destExists
  | notListed path argument unlisted =>
    rcases argument with rfl | rfl
    · exact unlisted sources sourcesFound
    · exact unlisted dests destsFound
  | notIndexed sources' sourcesFound' path member undeclared =>
    obtain rfl : sources = sources' := Except.ok.inj (sourcesFound.symm.trans sourcesFound')
    obtain ⟨declared, declares⟩ := (exists_build_iff ..).mp ⟨index, built⟩ path member
    exact undeclared declared declares
  | notThreaded unready => exact unready ready
  | notScanned sources' sourcesFound' index' built' dests' destsFound' path member uncounted =>
    obtain rfl : sources = sources' := Except.ok.inj (sourcesFound.symm.trans sourcesFound')
    obtain rfl : index = index' := Except.ok.inj (built.symm.trans built')
    obtain rfl : dests = dests' := Except.ok.inj (destsFound.symm.trans destsFound')
    obtain ⟨counts, scanned⟩ := counted path member
    exact uncounted counts scanned

/-- The steps are all there is: if none of them fails there is something to print. -/
theorem crossUsageFails_iff :
    CrossUsageFails files tools sourceDir destDir threads resolution ↔
      ¬∃ text, crossUsageOutput files sourceDir destDir threads resolution tools = .ok text := by
  refine ⟨CrossUsageFails.not_crossUsageOutput, ?_⟩
  rw [exists_crossUsageOutput_iff]
  intro none
  by_contra unfailing
  have exist (path : Path) (argument : path = sourceDir ∨ path = destDir) :
      files.isDirectory path = true := by
    by_contra refused
    exact unfailing (.notDirectory path argument refused)
  have listed (path : Path) (argument : path = sourceDir ∨ path = destDir) :
      ∃ paths, files.scan path tools.walker = .ok paths := by
    by_contra unlisted
    exact unfailing (.notListed path argument (not_exists.mp unlisted))
  have ready : tools.workers.setUp threads = .ok () := by
    by_contra unready
    exact unfailing (.notThreaded unready)
  obtain ⟨sources, sourcesFound⟩ := listed sourceDir (.inl rfl)
  obtain ⟨dests, destsFound⟩ := listed destDir (.inr rfl)
  have declares : ∀ path ∈ sources, ∃ declared, Declares files tools.reader path declared := by
    intro path member
    by_contra undeclared
    exact unfailing (.notIndexed sources sourcesFound path member (not_exists.mp undeclared))
  obtain ⟨index, built⟩ := (exists_build_iff files tools.reader sources).mpr declares
  have counted : ∀ path ∈ dests,
      ∃ counts, Counts files tools.reader index resolution path counts := by
    intro path member
    by_contra uncounted
    exact unfailing (.notScanned sources sourcesFound index built dests destsFound path member
      (not_exists.mp uncounted))
  have reported := (exists_crossUsageReport_iff ..).mpr
    ⟨ready, sources, index, dests, sourcesFound, built, destsFound, counted⟩
  exact none ⟨exist sourceDir (.inl rfl), exist destDir (.inr rfl), reported⟩

/-- What a cross usage prints is its signatures, each with a line end after it, whichever threads
they were worked out on. -/
theorem exists_used_of_crossUsageOutput {text : String}
    (printed : crossUsageOutput files sourceDir destDir threads resolution tools = .ok text) :
    ∃ used, crossUsage files sourceDir destDir resolution threads tools = .ok used ∧
      (∀ threads' workers', workers'.setUp threads' = .ok () →
        crossUsage files sourceDir destDir resolution threads' { tools with workers := workers' } =
          .ok used) ∧
      text = String.join (used.map (· ++ "\n")) := by
  simp only [crossUsageOutput, bind_eq_ok_iff, pure, Except.pure, Except.ok.injEq] at printed
  obtain ⟨⟨⟩, -, ⟨⟩, -, used, found, rfl⟩ := printed
  refine ⟨used, found, fun threads' workers' ready => ?_,
    Report.lines_eq_join (crossUsage_ne_empty found)⟩
  simp only [crossUsage, bind_eq_ok_iff, pure, Except.pure, Except.ok.injEq] at found ⊢
  obtain ⟨report, reported, written⟩ := found
  obtain ⟨-, reports⟩ := (crossUsageReport_eq_ok_iff ..).mp reported
  exact ⟨report, (crossUsageReport_eq_ok_iff ..).mpr ⟨ready, reports⟩, written⟩

end CrossUsage

section Save

/-- The file that `path` leads to has been written, and all else is as before, but for directories
that `path` lies in and that were missing. -/
structure Saved (before after : Workspace) (path : Path) (content : ByteArray) (place : Place) :
    Prop where
  here : after.here = before.here
  found : after.find path = .ok (place, .file content)
  replaced : before.tree.Replaceable place
  others : ∀ other, other ≠ place → after.tree.get? other = before.tree.get? other ∨
    Makes path.LiesIn before after other

theorem makeParent_extends (files : Workspace) (path : Path) :
    Extends path.LiesIn files (makeParent files path).1 := by
  rw [makeParent]
  cases parent : path.parent? with
  | none => exact .refl _ files
  | some directory =>
    by_cases empty : directory.bytes.isEmpty = true
    · simp only [empty, if_true]
      exact .refl _ files
    · simp only [empty]
      refine (files.makeDirectories_extends directory).mono fun outer above => ?_
      rcases above with rfl | further
      · exact .single parent
      · exact .head parent further

theorem exists_saved_of_save {files files' : Workspace} {path : Path} {text : String}
    (saved : save files path text = (files', .ok ())) :
    ∃ place, Saved files files' path (Text.Utf8.encode text.toList).toByteArray place := by
  have extension := makeParent_extends files path
  rw [save] at saved
  cases made : makeParent files path with
  | mk middle result =>
    rw [made] at extension
    cases result with
    | error failure => simp [made] at saved
    | ok ready =>
      simp only [made] at saved
      cases outcome : middle.write path (Text.Utf8.encode text.toList).toByteArray with
      | error error => simp [outcome] at saved
      | ok written =>
        obtain rfl : written = files' := by simpa [outcome] using saved
        obtain ⟨place, free, rfl, found⟩ := Workspace.exists_put_of_write outcome
        refine ⟨place, extension.here, found, ?_, ?_⟩
        · rcases extension.change place with same | makes
          · rw [FileTree.Replaceable, same] at free
            exact free
          · exact .inl makes.free
        · intro other different
          rcases extension.change other with same | makes
          · exact .inl ((FileTree.get?_put_other different _).trans same)
          · exact .inr (makes.of_keeps (FileTree.Keeps.put free _) rfl)

end Save

/-- `text` has gone where it was asked to go: to standard output, or to a file and nowhere else. -/
def Delivers (before : Workspace) (text : String) (outcome : Outcome) : Option Path → Prop
  | none => outcome.output = text ∧ outcome.files = before
  | some path => outcome.output = "" ∧
    ∃ place, Saved before outcome.files path (Text.Utf8.encode text.toList).toByteArray place

theorem delivered_cases (files : Workspace) (events : List Log.Event) (output : Option Path)
    (text : String) :
    ((delivered files events output (.ok text)).exitCode = 0 ∧
      Delivers files text (delivered files events output (.ok text)) output) ∨
    ((delivered files events output (.ok text)).exitCode = 1 ∧
      ∃ path failure, output = some path ∧ (save files path text).2 = .error failure) := by
  cases output with
  | none => exact .inl ⟨rfl, rfl, rfl⟩
  | some path =>
    rw [delivered]
    cases outcome : save files path text with
    | mk files' result =>
      cases result with
      | ok done => exact .inl ⟨rfl, rfl, exists_saved_of_save outcome⟩
      | error failure => exact .inr ⟨rfl, path, failure, rfl, by rw [outcome]⟩

theorem delivered_error (files : Workspace) (events : List Log.Event) (output : Option Path)
    (failure : Failure) :
    delivered files events output (.error failure) = failed files events failure := by
  cases output <;> rfl

theorem execute_compare (host : Host) (tools : Tools) (verbose : Bool) (config : Option Path)
    (source dest : Path) (format : OutputFormat) (resolution : Resolution) :
    ∃ events, execute host ⟨verbose, config, .compare source dest format resolution⟩ tools =
      printed host.files events
        (compareOutput host.files source dest format resolution tools.reader) :=
  ⟨_, rfl⟩

theorem execute_crossUsage (host : Host) (tools : Tools) (verbose : Bool) (config : Option Path)
    (sourceDir destDir : Path) (output : Option Path) (threads : Option Nat)
    (resolution : Resolution) :
    ∃ events, execute host ⟨verbose, config, .crossUsage sourceDir destDir output threads
        resolution⟩ tools =
      delivered host.files events output
        (crossUsageOutput host.files sourceDir destDir threads resolution tools) :=
  ⟨_, rfl⟩

/-- A run whose analysis fails prints nothing, writes nothing and exits with 1. A cross usage that
exits with 0 has delivered exactly its signatures, one on each line. If the analysis does not fail,
a run can only fail because its result cannot be saved. -/
theorem run_delivers_all_or_nothing (host : Host) (tools : Tools) {arguments : List String}
    {options : Options} (parsed : CommandLine.parse arguments = .ok options) :
    (AnalysisFails host.files tools options.command →
      (run host arguments tools).exitCode = 1 ∧ (run host arguments tools).output = "" ∧
        (run host arguments tools).files = host.files) ∧
    (∀ sourceDir destDir output threads resolution,
      options.command = .crossUsage sourceDir destDir output threads resolution →
      (run host arguments tools).exitCode = 0 →
      ∃ used, crossUsage host.files sourceDir destDir resolution threads tools = .ok used ∧
        (∀ threads' workers', workers'.setUp threads' = .ok () →
          crossUsage host.files sourceDir destDir resolution threads'
            { tools with workers := workers' } = .ok used) ∧
        Delivers host.files (String.join (used.map (· ++ "\n"))) (run host arguments tools)
          output) ∧
    (∀ source dest format resolution, options.command = .compare source dest format resolution →
      ¬AnalysisFails host.files tools options.command →
      (run host arguments tools).exitCode = 0 ∧ (run host arguments tools).files = host.files) ∧
    ∀ sourceDir destDir output threads resolution,
      options.command = .crossUsage sourceDir destDir output threads resolution →
      ¬AnalysisFails host.files tools options.command →
      (run host arguments tools).exitCode = 0 ∨
        ∃ path used failure, output = some path ∧
          crossUsage host.files sourceDir destDir resolution threads tools = .ok used ∧
          (save host.files path (String.join (used.map (· ++ "\n")))).2 = .error failure := by
  have started : run host arguments tools = execute host options tools := by rw [run, parsed]
  rw [started]
  obtain ⟨verbose, config, command⟩ := options
  cases command with
  | compare source dest format resolution =>
    obtain ⟨events, executed⟩ :=
      execute_compare host tools verbose config source dest format resolution
    rw [executed, AnalysisFails, compareFails_iff format]
    refine ⟨?_, nofun, ?_, nofun⟩
    · intro fails
      cases outcome : compareOutput host.files source dest format resolution tools.reader with
      | ok text => exact absurd ⟨text, outcome⟩ fails
      | error failure => exact ⟨rfl, rfl, rfl⟩
    · intro _ _ _ _ _ succeeds
      obtain ⟨text, outcome⟩ := not_not.mp succeeds
      rw [outcome]
      exact ⟨rfl, rfl⟩
  | crossUsage sourceDir destDir output threads resolution =>
    obtain ⟨events, executed⟩ :=
      execute_crossUsage host tools verbose config sourceDir destDir output threads resolution
    rw [executed, AnalysisFails, crossUsageFails_iff]
    cases outcome : crossUsageOutput host.files sourceDir destDir threads resolution tools with
    | error failure =>
      rw [delivered_error]
      refine ⟨fun _ => ⟨rfl, rfl, rfl⟩, nofun, nofun, ?_⟩
      intro _ _ _ _ _ _ succeeds
      simp at succeeds
    | ok text =>
      obtain ⟨used, found, everywhere, rfl⟩ := exists_used_of_crossUsageOutput outcome
      have cases := delivered_cases host.files events output (String.join (used.map (· ++ "\n")))
      refine ⟨fun fails => absurd ⟨_, rfl⟩ fails, ?_, nofun, ?_⟩
      · rintro _ _ _ _ _ ⟨⟩ exited
        rcases cases with ⟨-, delivers⟩ | ⟨exited', -⟩
        · exact ⟨used, found, everywhere, delivers⟩
        · rw [exited'] at exited
          cases exited
      · rintro _ _ _ _ _ ⟨⟩ -
        rcases cases with ⟨exited, -⟩ | ⟨-, path, failure, asked, unsaved⟩
        · exact .inl exited
        · exact .inr ⟨path, used, failure, asked, found, unsaved⟩
  | check source overrides => exact ⟨nofun, nofun, nofun, nofun⟩

/-- A machine with the archives `a/u.jar` and `b/m.jar` and nothing else. -/
def twoArchives : Host := ⟨separateNames, fun _ => none, none, fun _ => none⟩

/-- A search that is not allowed to look into any directory. -/
def lockedOut : Walker where
  deliver _ base _ := [.error ⟨[base.display ++ ": " ++ IoError.message (.os .permissionDenied)]⟩]

theorem crossUsage_separateNames :
    crossUsage separateNames (.ofString "a") (.ofString "b") .hierarchy none .plain =
      .ok ["U#f()"] :=
  (bind_eq_ok_iff ..).mpr ⟨_, separateNames_reports none .inOrder rfl, rfl⟩

theorem separateNames_not_fails :
    ¬CrossUsageFails separateNames .plain (.ofString "a") (.ofString "b") none .hierarchy := by
  have sourceExists : separateNames.isDirectory (.ofString "a") = true := by decide +kernel
  have destExists : separateNames.isDirectory (.ofString "b") = true := by decide +kernel
  rw [crossUsageFails_iff, not_not, exists_crossUsageOutput_iff]
  exact ⟨sourceExists, destExists, _, separateNames_reports none .inOrder rfl⟩

theorem separateNames_fails_lockedOut :
    CrossUsageFails separateNames { Tools.plain with walker := lockedOut } (.ofString "a")
      (.ofString "b") none .hierarchy := by
  refine .notListed (.ofString "a") (.inl rfl) ?_
  have found : separateNames.find (.ofString "a") = .ok ([[0x61]], .directory) := rfl
  have failed := (Workspace.scan_eq_error_iff found lockedOut _).mpr ⟨[], _, [], rfl, rfl⟩
  intro paths listed
  rw [failed] at listed
  cases listed

/-- Asks for the uses of the archives below `source` to be saved. -/
def savingArguments (source : String) : List String :=
  ["cross-usage", source, "b", "--resolve", "hierarchy", "-o", "out/used.txt"]

/-- The one use goes to a new file in a new directory. Where the sources should be there is a file,
or where they are cannot be looked into, and no directory is made. -/
theorem run_delivers_on_twoArchives :
    (run twoArchives (savingArguments "a")).exitCode = 0 ∧
    (∃ place, Saved separateNames (run twoArchives (savingArguments "a")).files
      (.ofString "out/used.txt") (Text.Utf8.encode "U#f()\n".toList).toByteArray place) ∧
    ((run twoArchives (savingArguments "a/u.jar")).exitCode = 1 ∧
      (run twoArchives (savingArguments "a/u.jar")).output = "" ∧
      (run twoArchives (savingArguments "a/u.jar")).files = separateNames) ∧
    (run twoArchives (savingArguments "a") { Tools.plain with walker := lockedOut }).exitCode = 1 ∧
    (run twoArchives (savingArguments "a") { Tools.plain with walker := lockedOut }).files =
      separateNames := by
  have parsed : CommandLine.parse (savingArguments "a") =
      .ok ⟨false, none, .crossUsage (.ofString "a") (.ofString "b")
        (some (.ofString "out/used.txt")) none .hierarchy⟩ :=
    (toOption_eq_some_iff _ _).mp (by decide +kernel)
  have parsed' : CommandLine.parse (savingArguments "a/u.jar") =
      .ok ⟨false, none, .crossUsage (.ofString "a/u.jar") (.ofString "b")
        (some (.ofString "out/used.txt")) none .hierarchy⟩ :=
    (toOption_eq_some_iff _ _).mp (by decide +kernel)
  have line : String.join (["U#f()"].map (· ++ "\n")) = "U#f()\n" := by decide +kernel
  have writable : (save separateNames (.ofString "out/used.txt") "U#f()\n").2.isOk = true := by
    decide +kernel
  have refused : ¬separateNames.isDirectory (.ofString "a/u.jar") = true := by decide +kernel
  obtain ⟨-, delivers, -, succeeds⟩ := run_delivers_all_or_nothing twoArchives .plain parsed
  obtain ⟨fails, -⟩ := run_delivers_all_or_nothing twoArchives .plain parsed'
  obtain ⟨fails', -⟩ := run_delivers_all_or_nothing twoArchives
    { Tools.plain with walker := lockedOut } parsed
  obtain ⟨exited', -, unchanged⟩ := fails' separateNames_fails_lockedOut
  have exited : (run twoArchives (savingArguments "a")).exitCode = 0 := by
    rcases succeeds _ _ _ _ _ rfl separateNames_not_fails with
      exited | ⟨path, used, failure, ⟨⟩, found, unsaved⟩
    · exact exited
    · obtain rfl := Except.ok.inj (crossUsage_separateNames.symm.trans found)
      rw [line, twoArchives] at unsaved
      rw [unsaved] at writable
      cases writable
  obtain ⟨used, found, -, -, place, saved⟩ := delivers _ _ _ _ _ rfl exited
  obtain rfl := Except.ok.inj (crossUsage_separateNames.symm.trans found)
  rw [line] at saved
  exact ⟨exited, ⟨place, saved⟩, fails (.notDirectory _ (.inl rfl) refused), exited', unchanged⟩

end Program

end JarCensus
