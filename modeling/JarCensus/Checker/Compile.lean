import JarCensus.Checker.Verdict
import JarCensus.Config.Settings

/-! Compiling a source file through a type checker. -/
namespace JarCensus

namespace Checker

def javaVariable : String := "JAR_USAGE_JAVA"

def javaName (environment : String → Option String) : String :=
  (environment javaVariable).getD "java"

def arguments (settings : CheckerSettings) (source : Path) : Except Failure (List String) := do
  match settings.checkerJar.text?, source.text? with
  | none, _ => throw (.ofCause .checkerJarNotText)
  | _, none => throw (.ofCause .sourceNotText)
  | some jar, some source =>
    return ["-jar", jar, "-cp", settings.classpath, "-processor", settings.processors, source]

/-- The diagnostics for `source`; empty when there are none. How the checker ends plays no part. -/
def compile (host : Host) (settings : CheckerSettings) (source : Path) : Except Failure String := do
  let arguments ← arguments settings source
  let finished ← ioDuring .runJava (host.launch (javaName host.environment) arguments)
  return verdictText finished.errors

end Checker

structure CheckResult where
  source : Path
  error : String
  deriving DecidableEq, Repr

/-- A source passes when the checker has nothing to say about it. -/
def CheckResult.passed (result : CheckResult) : Bool := result.error = ""

def checkSource (host : Host) (config : Option Path) (overrides : CheckerOverrides)
    (source : Path) : Except Failure CheckResult := do
  let config ← Config.load host config
  let settings ← CheckerSettings.resolve host.environment overrides config
  let error ← Checker.compile host settings source
  return ⟨source, error⟩

end JarCensus
