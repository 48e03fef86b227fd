import JarCensus.MethodIndex.Archives
import JarCensus.Ranking

/-! Comparing one archive with another. -/
namespace JarCensus

/-- How often `dest` calls each method declared in `source`, most used first. -/
def compareArchives (files : Workspace) (source dest : Path) (resolution : Resolution)
    (reader : Zip.Reader := .standard) : Except Failure (List MethodUsage) := do
  let index ← MethodIndex.empty.insertArchive files source reader
  let counts ← index.analyzeArchive files resolution dest reader
  return counts.ranked

end JarCensus
