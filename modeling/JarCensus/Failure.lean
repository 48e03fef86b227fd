import JarCensus.ClassFile.Basic
import JarCensus.FileSystem.Error
import JarCensus.FileSystem.Path
import JarCensus.FormatError
import JarCensus.Zip.Error

/-! Failures of an analysis or a check: a cause, and what was being done, outermost first. -/
namespace JarCensus

inductive Setting where
  | checkerJar
  | classpath
  | processors
  deriving DecidableEq, Repr

namespace Setting

def variableName : Setting → String
  | .checkerJar => "JAR_USAGE_CHECKER_JAR"
  | .classpath => "JAR_USAGE_CHECKER_CLASSPATH"
  | .processors => "JAR_USAGE_CHECKER_PROCESSORS"

def missing : Setting → String
  | .checkerJar => "Checker jar not set (use --checker-jar or " ++ variableName .checkerJar ++ ")"
  | .classpath => "Checker classpath not set (use --classpath or " ++ variableName .classpath ++ ")"
  | .processors =>
    "Checker processors not set (use --processor or " ++ variableName .processors ++ ")"

end Setting

/-- How a configuration document fails to be one: it ends too early, it is not well formed, or it
does not describe a configuration. -/
inductive DocumentFault where
  | ended
  | malformed
  | unsuitable
  deriving DecidableEq, Repr

/-- An error of a library, known by its texts alone: its own, then those of what caused it. -/
structure ForeignError where
  chain : List String
  deriving DecidableEq, Repr

inductive Context where
  | openArchive (path : Path)
  | mapArchive (path : Path)
  | readContainer (path : Path)
  | readEntry (index : Nat) (path : Path)
  | readContent (entry : String) (path : Path)
  | decodeClass (entry : String) (path : Path)
  | declaration (owner method : String)
  | callTarget (call : Invocation) (className method : String)
  | indexArchive (path : Path)
  | analyzeArchive (path : Path)
  | walk (base : Path)
  | buildPool
  | readConfig (path : Path)
  | parseConfig (path : Path)
  | runJava
  | createDirectory (path : Path)
  | writeFile (path : Path)
  deriving DecidableEq, Repr

def Context.message : Context → String
  | .openArchive path => "Failed to open archive: " ++ path.display
  | .mapArchive path => "Failed to mmap archive: " ++ path.display
  | .readContainer path => "Failed to read zip structure: " ++ path.display
  | .readEntry index path =>
    "Failed to read entry #" ++ Text.decimal index ++ " of " ++ path.display
  | .readContent entry path => "Failed to read " ++ entry ++ " in " ++ path.display
  | .decodeClass entry path => "Malformed class " ++ entry ++ " in " ++ path.display
  | .declaration owner method => "Bad descriptor on " ++ owner ++ "." ++ method
  | .callTarget call className method =>
    "Bad call target " ++ call.owner ++ "." ++ call.name ++ call.descriptor ++ " in " ++
      className ++ "." ++ method
  | .indexArchive path => "Failed to index " ++ path.display
  | .analyzeArchive path => "Failed to analyze " ++ path.display
  | .walk base => "Failed to walk " ++ base.display
  | .buildPool => "Failed to build scan thread pool"
  | .readConfig path => "Failed to read config file: " ++ path.display
  | .parseConfig path => "Failed to parse config file: " ++ path.display
  | .runJava => "Failed to execute java (ensure JRE/JDK is installed)"
  | .createDirectory path => "Failed to create directory: " ++ path.display
  | .writeFile path => "Failed to write " ++ path.display

inductive Cause where
  | format (error : FormatError)
  | zip (error : Zip.ZipError)
  | io (error : IoError)
  | foreign (error : ForeignError)
  | document (fault : DocumentFault)
  | notDirectory (path : Path)
  | notFile (path : Path)
  | configMissing (path : Path)
  | noConfigDirectory
  | settingMissing (setting : Setting)
  | checkerJarNotText
  | sourceNotText
  deriving DecidableEq, Repr

/-- A cause and its own causes. A fault of a document is described by its context alone. -/
def Cause.chain : Cause → List String
  | .format error => [error.message]
  | .zip error => error.chain
  | .io error => [error.message]
  | .foreign error => error.chain
  | .document _ => []
  | .notDirectory path => ["Not a directory: " ++ path.display]
  | .notFile path => ["Not a file: " ++ path.display]
  | .configMissing path => ["Config file not found: " ++ path.display]
  | .noConfigDirectory => ["Failed to resolve config directory"]
  | .settingMissing setting => [setting.missing]
  | .checkerJarNotText => ["checker jar path is not valid UTF-8"]
  | .sourceNotText => ["source path is not valid UTF-8"]

structure Failure where
  contexts : List Context
  cause : Cause
  deriving DecidableEq, Repr

namespace Failure

def ofCause (cause : Cause) : Failure := ⟨[], cause⟩

/-- The failure as seen by someone who was doing `context`. -/
def within (failure : Failure) (context : Context) : Failure :=
  { failure with contexts := context :: failure.contexts }

def chain (failure : Failure) : List String :=
  failure.contexts.map Context.message ++ failure.cause.chain

def message (failure : Failure) : String := String.intercalate ": " failure.chain

/-- A cause in a report: line ends inside it keep its indentation. -/
def indented (margin : Nat) (text : String) : String :=
  String.ofList (Text.replaceAll ['\n'] ('\n' :: List.replicate margin ' ') text.toList)

def numbered : (first : Nat) → List String → String
  | _, [] => ""
  | first, cause :: causes =>
    String.ofList (Text.padLeft 5 ' ' (Text.decimal first).toList) ++ ": " ++ indented 7 cause ++
      "\n" ++ numbered (first + 1) causes

/-- The failure as printed when the program gives up: the outermost text, then its causes, numbered
if there are several. A fault of a document has no text of its own, so only the first line is
given for it. -/
def report (failure : Failure) : String :=
  match failure.chain, failure.cause with
  | text :: _, .document _ => "Error: " ++ text
  | [], _ => "Error: "
  | [text], _ => "Error: " ++ text ++ "\n"
  | [text, cause], _ => "Error: " ++ text ++ "\n\nCaused by:\n    " ++ indented 4 cause ++ "\n"
  | text :: causes, _ => "Error: " ++ text ++ "\n\nCaused by:\n" ++ numbered 0 causes

end Failure

def during {α : Type} (context : Context) (result : Except Failure α) : Except Failure α :=
  result.mapError (·.within context)

def formatDuring {α : Type} (context : Context) (result : Except FormatError α) :
    Except Failure α :=
  result.mapError fun error => ⟨[context], .format error⟩

def ioDuring {α : Type} (context : Context) (result : Except IoError α) : Except Failure α :=
  result.mapError fun error => ⟨[context], .io error⟩

def foreignDuring {α : Type} (context : Context) (result : Except ForeignError α) :
    Except Failure α :=
  result.mapError fun error => ⟨[context], .foreign error⟩

end JarCensus
