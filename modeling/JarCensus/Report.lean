import JarCensus.Checker.Compile
import JarCensus.Ranking
import JarCensus.Text.Quoted

/-! The texts that results are printed as. -/
namespace JarCensus.Report

/-- Texts, each on a line of its own. Without any, or with only an empty one, nothing is printed. -/
def lines (texts : List String) : String :=
  let content := String.intercalate "\n" texts
  if content = "" then "" else content ++ "\n"

def usageText (usages : List MethodUsage) : String :=
  String.join (usages.map fun usage => usage.line ++ "\n")

def usageElement (usage : MethodUsage) : String :=
  "  \x7b\n    \"signature\": " ++ Text.quoted usage.signature ++ ",\n    \"count\": " ++
    Text.decimal usage.count ++ "\n  \x7d"

def usageJson (usages : List MethodUsage) : String :=
  if usages.isEmpty then "[]\n"
  else "[\n" ++ String.intercalate ",\n" (usages.map usageElement) ++ "\n]\n"

def checkJson (result : CheckResult) : String :=
  "\x7b\n  \"source\": " ++ Text.quoted result.source.display ++ ",\n  \"passed\": " ++
    (if result.passed then "true" else "false") ++ ",\n  \"error\": " ++ Text.quoted result.error ++
    "\n\x7d\n"

end JarCensus.Report
