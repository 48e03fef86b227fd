import JarCensus.FileSystem.Path
import JarCensus.Resolution

/-! What the command line can ask for, and why it may be refused. -/
namespace JarCensus

inductive OutputFormat where
  | text
  | json
  deriving DecidableEq, Repr

structure CheckerOverrides where
  checkerJar : Option Path := none
  classpath : Option String := none
  processors : Option String := none
  deriving DecidableEq, Repr

inductive Command where
  /-- How often `dest` calls each method declared in `source`. -/
  | compare (source dest : Path) (format : OutputFormat) (resolution : Resolution)
  /-- Source methods used by each archive under `destDir`, one line per use. -/
  | crossUsage (sourceDir destDir : Path) (output : Option Path) (threads : Option Nat)
      (resolution : Resolution)
  /-- Compile a source file with the configured type checker. -/
  | check (source : Path) (overrides : CheckerOverrides)
  deriving DecidableEq, Repr

structure Options where
  verbose : Bool
  config : Option Path
  command : Command
  deriving DecidableEq, Repr

inductive UsageError where
  | missingArgument
  | unknownArgument
  /-- A value is missing, empty where a path is needed, or not one of those allowed. -/
  | invalidValue
  | invalidNumber
  | repeatedOption
  /-- A flag was given a value. -/
  | surplusValue
  | unknownCommand
  | missingCommand
  | nothingGiven
  | helpRequested
  deriving DecidableEq, Repr

end JarCensus
