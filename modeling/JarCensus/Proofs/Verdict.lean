import JarCensus.Checker.Compile
import JarCensus.Proofs.Results
import JarCensus.Proofs.Text.Lossy
import JarCensus.Proofs.Text.Search
import Mathlib.Data.List.DropRight

/-! What a check makes of a checker's messages. The messages need not be UTF-8; reading them neither
loses nor makes up a marker, and cutting white space off never takes the marker away, so a source
passes exactly if the marker is not among the bytes that the checker has written. -/
namespace JarCensus

namespace Checker

/-- The marker as the checker writes it. -/
def markerBytes : List UInt8 := [0x65, 0x72, 0x72, 0x6F, 0x72, 0x3A]

/-- `text` is what a checker has to say in `messages`: nothing if there is no marker in them, and
otherwise all from the first one on, less the white space at the end. -/
def Diagnoses (messages : List Char) (text : String) : Prop :=
  (¬errorMarker <:+: messages ∧ text = "") ∨
  ∃ diagnostics, Text.FromFirst errorMarker messages diagnostics ∧
    text = String.ofList (diagnostics.rdropWhile Text.isBlank)

/-- Diagnostics start with the marker, so white space is removed from their end only, and not the
marker itself. -/
theorem trim_of_marked {diagnostics : List Char} (marked : errorMarker <+: diagnostics) :
    Text.trim diagnostics = diagnostics.rdropWhile Text.isBlank ∧
      errorMarker <+: diagnostics.rdropWhile Text.isBlank := by
  obtain ⟨rest, rfl⟩ := marked
  have front : (errorMarker ++ rest).dropWhile Text.isBlank = errorMarker ++ rest := rfl
  refine ⟨congrArg (List.rdropWhile Text.isBlank) front, ?_⟩
  have turned : errorMarker.reverse.dropWhile Text.isBlank = errorMarker.reverse := by decide
  rw [List.rdropWhile, List.reverse_append, List.dropWhile_append, turned]
  split <;> simp

theorem diagnoses_extractError (messages : String) :
    Diagnoses messages.toList (extractError messages) := by
  rw [extractError]
  cases found : Text.findFrom? errorMarker messages.toList with
  | none => exact .inl ⟨Text.findFrom?_eq_none_iff.mp found, rfl⟩
  | some diagnostics =>
    have first := Text.findFrom?_eq_some_iff.mp found
    exact .inr ⟨diagnostics, first, congrArg String.ofList (trim_of_marked first.starts).1⟩

theorem Diagnoses.eq_empty_iff {messages : List Char} {text : String}
    (diagnoses : Diagnoses messages text) : text = "" ↔ ¬errorMarker <:+: messages := by
  rcases diagnoses with ⟨absent, rfl⟩ | ⟨diagnostics, first, rfl⟩
  · exact iff_of_true rfl absent
  · have present : errorMarker <:+: messages := first.starts.isInfix.trans first.ends.isInfix
    refine iff_of_false (fun empty => ?_) (not_not_intro present)
    have kept := (trim_of_marked first.starts).2
    have nothing : diagnostics.rdropWhile Text.isBlank = [] := String.ofList_eq_empty_iff.mp empty
    rw [nothing, List.prefix_nil] at kept
    exact absurd kept (by decide)

/-- Diagnostics have nothing before their first marker and no white space at their end. -/
theorem extractError_extractError (messages : String) :
    extractError (extractError messages) = extractError messages := by
  rcases diagnoses_extractError messages with ⟨-, none⟩ | ⟨diagnostics, first, text⟩
  · rw [none]
    decide
  · obtain ⟨-, marked⟩ := trim_of_marked first.starts
    have again : Text.FromFirst errorMarker (diagnostics.rdropWhile Text.isBlank)
        (diagnostics.rdropWhile Text.isBlank) :=
      ⟨List.suffix_rfl, marked, fun other ends _ => ends⟩
    rw [text, extractError, String.toList_ofList, Text.findFrom?_eq_some_iff.mpr again]
    exact congrArg String.ofList
      ((trim_of_marked marked).1.trans (List.rdropWhile_idempotent _ _))

theorem verdictText_eq_empty_iff (errors : ByteArray) :
    verdictText errors = "" ↔ ¬markerBytes <:+: errors.toList := by
  have spelled : errorMarker = markerBytes.map Text.Utf8.asciiChar := by decide
  have plain : ∀ byte ∈ markerBytes, byte < 0x80 := by simp [markerBytes]
  rw [verdictText, (diagnoses_extractError _).eq_empty_iff, String.toList_ofList, spelled]
  exact not_congr (Text.Utf8.infix_lossy_iff errors.toList (by decide) plain)

theorem compile_eq_ok_iff (host : Host) (settings : CheckerSettings) (source : Path)
    (text : String) :
    compile host settings source = .ok text ↔
      ∃ arguments finished, Checker.arguments settings source = .ok arguments ∧
        host.launch (javaName host.environment) arguments = .ok finished ∧
        text = verdictText finished.errors := by
  simp only [compile, bind_eq_ok_iff, ioDuring_eq_ok_iff, pure, Except.pure, Except.ok.injEq]
  constructor
  · rintro ⟨arguments, spelled, finished, ended, rfl⟩
    exact ⟨arguments, finished, spelled, ended, rfl⟩
  · rintro ⟨arguments, finished, spelled, ended, rfl⟩
    exact ⟨arguments, spelled, finished, ended, rfl⟩

end Checker

theorem checkSource_eq_ok {host : Host} {config : Option Path} {overrides : CheckerOverrides}
    {document : Config} {settings : CheckerSettings} {source : Path} {text : String}
    (loaded : Config.load host config = .ok document)
    (resolved : CheckerSettings.resolve host.environment overrides document = .ok settings)
    (compiled : Checker.compile host settings source = .ok text) :
    checkSource host config overrides source = .ok ⟨source, text⟩ := by
  rw [checkSource, loaded]
  simp only [bind_eq_ok_iff]
  exact ⟨document, rfl, settings, resolved, text, compiled, rfl⟩

/-- Whatever the checker's process writes and whatever its status, compiling shows its diagnostics
from the first `error:` on, and a check passes exactly if the bytes that it wrote have no `error:`
in them. Bytes that are not UTF-8 neither hide one nor make one up. -/
theorem check_verdict_matches_errors (host : Host) (settings : CheckerSettings) (source : Path)
    {arguments : List String} {finished : Finished}
    (spelled : Checker.arguments settings source = .ok arguments)
    (ended : host.launch (Checker.javaName host.environment) arguments = .ok finished) :
    ∃ text, Checker.compile host settings source = .ok text ∧
      Checker.Diagnoses (Text.Utf8.lossy finished.errors.toList) text ∧
      (∀ config overrides document, Config.load host config = .ok document →
        CheckerSettings.resolve host.environment overrides document = .ok settings →
        ∃ result, checkSource host config overrides source = .ok result ∧
          result.source = source ∧ result.error = text ∧
          (result.passed = true ↔ ¬Checker.markerBytes <:+: finished.errors.toList)) ∧
      ∀ messages, Checker.extractError (Checker.extractError messages) =
        Checker.extractError messages := by
  have compiled : Checker.compile host settings source =
      .ok (Checker.verdictText finished.errors) :=
    (Checker.compile_eq_ok_iff ..).mpr ⟨arguments, finished, spelled, ended, rfl⟩
  have diagnoses := Checker.diagnoses_extractError
    (String.ofList (Text.Utf8.lossy finished.errors.toList))
  rw [String.toList_ofList] at diagnoses
  refine ⟨_, compiled, diagnoses, ?_, Checker.extractError_extractError⟩
  intro config overrides document loaded resolved
  refine ⟨_, checkSource_eq_ok loaded resolved compiled, rfl, rfl, ?_⟩
  rw [CheckResult.passed, decide_eq_true_eq]
  exact Checker.verdictText_eq_empty_iff finished.errors

/-- `error: ` between bytes that are not UTF-8. -/
def noisyErrors : ByteArray :=
  ⟨#[0xC3, 0x65, 0x72, 0x72, 0x6F, 0x72, 0x3A, 0x20, 0xE2, 0x82, 0x20]⟩

/-- A machine whose checker ends with status 3 after writing a diagnostic between bytes that are not
UTF-8. -/
def noisyChecker : Host where
  files := ⟨FileTree.empty.put [[0x62, 0x69, 0x6E]] .directory
    |>.put [[0x62, 0x69, 0x6E], [0x6A, 0x61, 0x76, 0x61]] (.file .empty), []⟩
  environment _ := none
  accountHome := some (.ofString "/home")
  executables _ := some fun _ => ⟨3, .empty, noisyErrors⟩

def noisySettings : CheckerSettings := ⟨.ofString "c.jar", ".", "nullness"⟩

def noisyOverrides : CheckerOverrides := ⟨some (.ofString "c.jar"), some ".", some "nullness"⟩

def noisyArguments : List String :=
  ["-jar", "c.jar", "-cp", ".", "-processor", "nullness", "A.java"]

/-- The bytes before and after the diagnostic are shown as U+FFFD, and it does not pass. -/
theorem check_verdict_of_noisyChecker :
    Checker.arguments noisySettings (.ofString "A.java") = .ok noisyArguments ∧
    noisyChecker.launch (Checker.javaName noisyChecker.environment) noisyArguments =
      .ok ⟨3, .empty, noisyErrors⟩ ∧
    Checker.compile noisyChecker noisySettings (.ofString "A.java") = .ok "error: \uFFFD" ∧
    ∃ result, checkSource noisyChecker none noisyOverrides (.ofString "A.java") = .ok result ∧
      result.error = "error: \uFFFD" ∧ ¬result.passed = true := by
  have spelled : Checker.arguments noisySettings (.ofString "A.java") = .ok noisyArguments := rfl
  have ended : noisyChecker.launch (Checker.javaName noisyChecker.environment) noisyArguments =
      .ok ⟨3, .empty, noisyErrors⟩ := rfl
  obtain ⟨text, compiled, -, checked, -⟩ :=
    check_verdict_matches_errors noisyChecker noisySettings (.ofString "A.java") spelled ended
  obtain ⟨result, checks, -, same, passes⟩ := checked none noisyOverrides {} rfl rfl
  have verdict : Checker.verdictText noisyErrors = "error: \uFFFD" := by decide +kernel
  have shown : Checker.compile noisyChecker noisySettings (.ofString "A.java") =
      .ok "error: \uFFFD" :=
    (Checker.compile_eq_ok_iff ..).mpr ⟨_, _, spelled, ended, verdict.symm⟩
  obtain rfl := Except.ok.inj (compiled.symm.trans shown)
  refine ⟨spelled, ended, shown, result, checks, same, ?_⟩
  rw [passes, not_not]
  exact ⟨[0xC3], [0x20, 0xE2, 0x82, 0x20], by decide +kernel⟩

end JarCensus
