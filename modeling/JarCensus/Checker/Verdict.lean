import JarCensus.Text.Blank
import JarCensus.Text.Search
import JarCensus.Text.Utf8

/-! Reading the verdict of a checker off what it writes. -/
namespace JarCensus.Checker

def errorMarker : List Char := "error:".toList

/-- The diagnostics in a checker's messages: everything from the first marker on, without white
space at the ends; empty when there is no marker. -/
def extractError (messages : String) : String :=
  match Text.findFrom? errorMarker messages.toList with
  | some diagnostics => String.ofList (Text.trim diagnostics)
  | none => ""

def verdictText (errors : ByteArray) : String :=
  extractError (String.ofList (Text.Utf8.lossy errors.toList))

end JarCensus.Checker
