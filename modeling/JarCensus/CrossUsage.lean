import JarCensus.FileSystem.Scan
import JarCensus.MethodIndex.Archives
import JarCensus.Ranking
import JarCensus.Workers

/-! All archives of one directory against all archives of another. Sources are indexed before any
destination is looked at, and any failure is a failure of the whole. -/
namespace JarCensus

/-- What the analyses leave to other libraries: finding files, reading archives and threads. -/
structure Tools where
  walker : Walker
  reader : Zip.Reader
  workers : Workers

/-- All in order, on one thread. -/
def Tools.plain : Tools := ⟨.inOrder, .standard, .inOrder⟩

structure ArchiveUsage where
  /-- The archive's path, as messages show it. -/
  archive : String
  counts : UsageCount

def ArchiveUsage.signatures (usage : ArchiveUsage) : List Signature := usage.counts.signatures

def archiveUsage (files : Workspace) (reader : Zip.Reader) (index : MethodIndex)
    (resolution : Resolution) (path : Path) : Except Failure ArchiveUsage := do
  let counts ← index.analyzeArchive files resolution path reader
  return ⟨path.display, counts⟩

/-- For each archive below `destDir`, in path order, its uses of the methods declared anywhere below
`sourceDir`. No archive's entry depends on the others, so they are worked out side by side. -/
def crossUsageReport (files : Workspace) (sourceDir destDir : Path) (resolution : Resolution)
    (threads : Option Nat := none) (tools : Tools := .plain) :
    Except Failure (List ArchiveUsage) := do
  let sources ← files.scan sourceDir tools.walker
  let index ← MethodIndex.build files sources tools.reader
  let dests ← files.scan destDir tools.walker
  tools.workers.setUp threads
  tools.workers.gather threads (archiveUsage files tools.reader index resolution) dests

/-- The used signatures of all destination archives, one after the other. A signature that several
archives use appears once for each. -/
def crossUsage (files : Workspace) (sourceDir destDir : Path) (resolution : Resolution)
    (threads : Option Nat := none) (tools : Tools := .plain) : Except Failure (List Signature) := do
  let report ← crossUsageReport files sourceDir destDir resolution threads tools
  return report.flatMap ArchiveUsage.signatures

end JarCensus
