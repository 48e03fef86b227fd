import JarCensus.FileSystem.Path
import JarCensus.Text.Numeral

/-! What a run reports while it works. -/
namespace JarCensus.Log

inductive Level where
  | error
  | warn
  | info
  | debug
  | trace
  deriving DecidableEq, Repr

namespace Level

def rank : Level → Nat
  | .error => 1
  | .warn => 2
  | .info => 3
  | .debug => 4
  | .trace => 5

def name : Level → String
  | .error => "ERROR"
  | .warn => "WARN"
  | .info => "INFO"
  | .debug => "DEBUG"
  | .trace => "TRACE"

end Level

inductive Event where
  /-- A source archive has been indexed. -/
  | indexed (archive : Path) (methods : Nat)
  /-- A source archive has taken the place of an earlier one with the same name. -/
  | replaced (archive : String)
  /-- The files below a directory are about to be found, from this working directory. -/
  | walkBegun (here : Path)
  /-- All sources have been indexed. -/
  | indexBuilt (archives methods : Nat)
  /-- A destination archive has been scanned. -/
  | scanned (archive : Path) (used : Nat)
  | compared (source dest : Path) (used : Nat)
  | crossUsageFinished (archives : Nat)
  deriving DecidableEq, Repr

namespace Event

def level : Event → Level
  | .walkBegun _ => .trace
  | .indexed _ _ | .scanned _ _ => .debug
  | .replaced _ => .warn
  | .indexBuilt _ _ | .compared _ _ _ | .crossUsageFinished _ => .info

def target : Event → String
  | .walkBegun _ => "ignore::walk"
  | .indexed _ _ | .replaced _ => "jar_usage::index"
  | _ => "jar_usage::analysis"

/-- Names of the fields that an event has, by which filters pick events. Not all of them are
shown. -/
def fields : Event → List String
  | .walkBegun _ => ["message", "log.target", "log.module_path", "log.file", "log.line"]
  | .indexed _ _ => ["message", "archive", "methods"]
  | .replaced _ => ["message", "archive"]
  | .indexBuilt _ _ => ["message", "archives", "methods"]
  | .scanned _ _ => ["message", "archive", "used"]
  | .compared _ _ _ => ["message", "source", "dest", "used", "duration_ms"]
  | .crossUsageFinished _ => ["message", "archives", "duration_ms"]

def text : Event → String
  | .walkBegun here => "automatically discovered CWD: " ++ here.display
  | .indexed archive methods =>
    "indexed archive archive=" ++ archive.display ++ " methods=" ++ Text.decimal methods
  | .replaced archive => "duplicate archive name in source index, replacing archive=" ++ archive
  | .indexBuilt archives methods =>
    "source index built archives=" ++ Text.decimal archives ++ " methods=" ++ Text.decimal methods
  | .scanned archive used =>
    "scanned archive archive=" ++ archive.display ++ " used=" ++ Text.decimal used
  | .compared source dest used =>
    "compare finished source=" ++ source.display ++ " dest=" ++ dest.display ++ " used=" ++
      Text.decimal used
  | .crossUsageFinished archives => "cross usage finished archives=" ++ Text.decimal archives

def line (event : Event) : String := event.level.name ++ " " ++ event.text

end Event

end JarCensus.Log
