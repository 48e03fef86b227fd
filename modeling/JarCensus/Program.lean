import JarCensus.CommandLine.Parse
import JarCensus.Journal
import JarCensus.Log.Filter
import JarCensus.Report

/-! The whole program as a function: from a host and a command line to what is printed, what is
logged, and the files as they are afterwards. Nothing is printed or written before the last step
that can fail has succeeded. -/
namespace JarCensus.Program

open Log (Event Filter)

structure Outcome where
  exitCode : UInt32
  output : String
  errors : String
  events : List Event
  files : Workspace

def usageText : String :=
  Report.lines [
    "Usage: jar-usage [--verbose] [--config FILE] COMMAND",
    "  compare SOURCE DEST [-f text|json] [--resolve exact|hierarchy]",
    "  cross-usage SOURCE_DIR DEST_DIR [-o FILE] [--threads N] [--resolve exact|hierarchy]",
    "  check SOURCE [--checker-jar FILE] [--classpath PATH] [--processor NAMES]"]

/-- A command line that cannot be followed. Only a request for help is no error. -/
def refused (host : Host) (error : UsageError) : Outcome :=
  if error = .helpRequested then ⟨0, usageText, "", [], host.files⟩
  else ⟨2, "", usageText, [], host.files⟩

def requireFile (files : Workspace) (path : Path) : Except Failure Unit :=
  if files.isFile path then .ok () else .error (.ofCause (.notFile path))

def requireDirectory (files : Workspace) (path : Path) : Except Failure Unit :=
  if files.isDirectory path then .ok () else .error (.ofCause (.notDirectory path))

def compareOutput (files : Workspace) (source dest : Path) (format : OutputFormat)
    (resolution : Resolution) (reader : Zip.Reader) : Except Failure String := do
  requireFile files source
  requireFile files dest
  let usages ← compareArchives files source dest resolution reader
  match format with
  | .text => return Report.usageText usages
  | .json => return Report.usageJson usages

def crossUsageOutput (files : Workspace) (sourceDir destDir : Path) (threads : Option Nat)
    (resolution : Resolution) (tools : Tools) : Except Failure String := do
  requireDirectory files sourceDir
  requireDirectory files destDir
  let used ← crossUsage files sourceDir destDir resolution threads tools
  return Report.lines used

def checkOutput (host : Host) (config : Option Path) (overrides : CheckerOverrides)
    (source : Path) : Except Failure String := do
  requireFile host.files source
  let result ← checkSource host config overrides source
  return Report.checkJson result

def makeParent (files : Workspace) (path : Path) : Workspace × Except Failure Unit :=
  match path.parent? with
  | none => (files, .ok ())
  | some parent =>
    if parent.bytes.isEmpty then (files, .ok ())
    else
      let (files, result) := files.makeDirectories parent
      (files, ioDuring (.createDirectory parent) result)

def save (files : Workspace) (path : Path) (content : String) :
    Workspace × Except Failure Unit :=
  match makeParent files path with
  | (files, .error failure) => (files, .error failure)
  | (files, .ok ()) =>
    match files.write path (Text.Utf8.encode content.toList).toByteArray with
    | .ok files => (files, .ok ())
    | .error error => (files, .error ⟨[.writeFile path], .io error⟩)

def succeeded (files : Workspace) (events : List Event) (output : String) : Outcome :=
  ⟨0, output, "", events, files⟩

def failed (files : Workspace) (events : List Event) (failure : Failure) : Outcome :=
  ⟨1, "", failure.report, events, files⟩

def printed (files : Workspace) (events : List Event) (result : Except Failure String) : Outcome :=
  match result with
  | .ok output => succeeded files events output
  | .error failure => failed files events failure

/-- A run that prints, or writes to a file if one is named. -/
def delivered (files : Workspace) (events : List Event) (path : Option Path)
    (result : Except Failure String) : Outcome :=
  match result, path with
  | .ok output, some path =>
    match save files path output with
    | (files, .ok ()) => succeeded files events ""
    | (files, .error failure) => failed files events failure
  | result, _ => printed files events result

/-- The events of a command, before filtering. An analysis whose arguments are refused has none. -/
def eventsOf (files : Workspace) (command : Command) (tools : Tools) : List Event :=
  match command with
  | .compare source dest _ resolution =>
    if files.isFile source && files.isFile dest then
      Journal.ofCompare files source dest resolution tools.reader
    else []
  | .crossUsage sourceDir destDir _ threads resolution =>
    if files.isDirectory sourceDir && files.isDirectory destDir then
      Journal.ofCrossUsage files sourceDir destDir threads resolution tools
    else []
  | .check _ _ => []

/-- Carries out a command. If the threads that are asked for can be had, their number decides how
fast a cross usage is worked out, never what comes out. -/
def execute (host : Host) (options : Options) (tools : Tools := .plain) : Outcome :=
  let filter := Filter.choose (host.environment Filter.variableName) options.verbose
  let events := (eventsOf host.files options.command tools).filter filter.shows
  match options.command with
  | .compare source dest format resolution =>
    printed host.files events (compareOutput host.files source dest format resolution tools.reader)
  | .crossUsage sourceDir destDir output threads resolution =>
    delivered host.files events output
      (crossUsageOutput host.files sourceDir destDir threads resolution tools)
  | .check source overrides =>
    printed host.files events (checkOutput host options.config overrides source)

def run (host : Host) (arguments : List String) (tools : Tools := .plain) : Outcome :=
  match CommandLine.parse arguments with
  | .ok options => execute host options tools
  | .error error => refused host error

end JarCensus.Program
