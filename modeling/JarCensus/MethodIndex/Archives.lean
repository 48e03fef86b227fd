import JarCensus.Archive
import JarCensus.UsageCount

/-! Indexing archives, and scanning archives against an index. -/
namespace JarCensus

def declaredMethodsIn (files : Workspace) (path : Path) (reader : Zip.Reader := .standard) :
    Except Failure SignatureSet := do
  let classes ← Archive.loadClasses files path reader
  during (.indexArchive path) (declaredMethods classes)

namespace MethodIndex

def insertArchive (index : MethodIndex) (files : Workspace) (path : Path)
    (reader : Zip.Reader := .standard) : Except Failure MethodIndex := do
  let methods ← declaredMethodsIn files path reader
  return index.insert (archiveKey path) methods

/-- Files archives in order; of archives with one name the last counts. -/
def build (files : Workspace) (paths : List Path) (reader : Zip.Reader := .standard) :
    Except Failure MethodIndex :=
  paths.foldlM (fun index path => index.insertArchive files path reader) empty

def analyzeArchive (index : MethodIndex) (files : Workspace) (resolution : Resolution)
    (path : Path) (reader : Zip.Reader := .standard) : Except Failure UsageCount := do
  let classes ← Archive.loadClasses files path reader
  during (.analyzeArchive path) (index.analyze resolution (archiveKey path) classes)

end MethodIndex

end JarCensus
