import JarCensus.CommandLine.Basic
import JarCensus.Config.Document
import JarCensus.Host

/-! Where a check gets its settings from: the command line, then the environment, then the
configuration file. -/
namespace JarCensus

structure CheckerSettings where
  checkerJar : Path
  classpath : String
  processors : String
  deriving DecidableEq, Repr

namespace Config

def homeDirectory? (host : Host) : Option Path :=
  match host.environment "HOME" with
  | some home => if home = "" then host.accountHome else some (.ofString home)
  | none => host.accountHome

/-- The directory that configurations are kept in: the one that the environment names, if it is
absolute, otherwise one in the home directory. -/
def directory? (host : Host) : Option Path :=
  let named := (host.environment "XDG_CONFIG_HOME").map Path.ofString
  match named.filter Path.isAbsolute with
  | some path => some path
  | none => (homeDirectory? host).map (·.join (Path.ofString ".config").bytes)

def defaultPath (host : Host) : Except Failure Path :=
  match directory? host with
  | some base =>
    .ok ((base.join (Path.ofString "jar-usage").bytes).join (Path.ofString "config.json").bytes)
  | none => .error (.ofCause .noConfigDirectory)

def readFile (files : Workspace) (path : Path) : Except Failure Config := do
  let content ← ioDuring (.readConfig path) (files.read path)
  if (Text.Utf8.decode? content.toList).isNone then throw ⟨[.readConfig path], .io .notUtf8⟩
  (parse content.toList).mapError fun fault => ⟨[.parseConfig path], .document fault⟩

/-- The configuration in force. A file that is named must be there; without the default file the
configuration is empty. -/
def load (host : Host) (named : Option Path) : Except Failure Config := do
  match named with
  | some path =>
    if host.files.leads path then readFile host.files path
    else throw (.ofCause (.configMissing path))
  | none =>
    let path ← defaultPath host
    if host.files.leads path then readFile host.files path else return {}

end Config

namespace CheckerSettings

def require {α : Type} (setting : Setting) (value : Option α) : Except Failure α :=
  match value with
  | some a => .ok a
  | none => .error (.ofCause (.settingMissing setting))

/-- Settings by precedence: command line, environment, configuration file. -/
def resolve (environment : String → Option String) (overrides : CheckerOverrides)
    (config : Config) : Except Failure CheckerSettings := do
  let fromEnvironment (setting : Setting) : Option String := environment setting.variableName
  let checkerJar ← require .checkerJar
    (overrides.checkerJar <|>
      ((fromEnvironment .checkerJar <|> config.checkerJar).map Path.ofString))
  let classpath ← require .classpath
    (overrides.classpath <|> fromEnvironment .classpath <|> config.classpath)
  let processors ← require .processors
    (overrides.processors <|> fromEnvironment .processors <|> config.processors)
  return { checkerJar, classpath, processors }

end CheckerSettings

end JarCensus
