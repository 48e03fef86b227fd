import JarCensus.FileSystem.Basic

/-! The machine that the program runs on: its files, its environment and the programs that can be
started on it. -/
namespace JarCensus

structure Finished where
  status : Nat
  output : ByteArray
  errors : ByteArray

abbrev Executable := List String → Finished

structure Host where
  files : Workspace
  environment : String → Option String
  /-- The home directory that the user's account has. -/
  accountHome : Option Path
  /-- Which files can be started, by place. -/
  executables : Place → Option Executable

namespace Host

/-- The executable that a path leads to. Directories and other files may not be started. -/
def executableAt (host : Host) (path : Path) : Except IoError Executable := do
  match ← host.files.find path with
  | (place, .file _) =>
    match host.executables place with
    | some executable => return executable
    | none => throw (.os .permissionDenied)
  | _ => throw (.os .permissionDenied)

def defaultSearchPath : String := "/bin:/usr/bin"

/-- The paths at which a program without a slash in its name is looked for. An empty part of the
search path stands for the working directory. -/
def candidates (host : Host) (name : Path) : List Path :=
  let search := Path.ofString ((host.environment "PATH").getD defaultSearchPath)
  (Text.pieces (· = 0x3A) search.bytes).map fun directory => Path.join ⟨directory⟩ name.bytes

/-- The first of several paths that leads to an executable. Where nothing is found the search goes
on; the last fault is reported in the end, or that something was found which may not be started
(`denied`). -/
def firstExecutable (host : Host) (denied : Bool) (last : OsError) :
    List Path → Except IoError Executable
  | [] => .error (.os (if denied then .permissionDenied else last))
  | path :: rest =>
    match host.executableAt path with
    | .ok executable => .ok executable
    | .error (.os .permissionDenied) => host.firstExecutable true last rest
    | .error (.os .notFound) => host.firstExecutable denied .notFound rest
    | .error (.os .notDirectory) => host.firstExecutable denied .notDirectory rest
    | .error error => .error error

def executable (host : Host) (name : String) : Except IoError Executable :=
  let path := Path.ofString name
  if path.bytes.isEmpty then .error (.os .notFound)
  else if path.bytes.contains Path.slash then host.executableAt path
  else host.firstExecutable false .notFound (host.candidates path)

def launch (host : Host) (name : String) (arguments : List String) : Except IoError Finished := do
  if (name :: arguments).any (·.toList.contains '\x00') then throw .nulInArgument
  let run ← host.executable name
  return run arguments

end Host

end JarCensus
