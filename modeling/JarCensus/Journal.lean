import JarCensus.Comparison
import JarCensus.CrossUsage
import JarCensus.Log.Event

/-! The events of an analysis, in order, up to the point where it ends or fails. They are worked out
beside the analysis and have no part in its answer. -/
namespace JarCensus.Journal

open Log (Event)

def ofCompare (files : Workspace) (source dest : Path) (resolution : Resolution)
    (reader : Zip.Reader) : List Event :=
  match compareArchives files source dest resolution reader with
  | .ok usages => [.compared source dest usages.length]
  | .error _ => []

def ofInsert (index : MethodIndex) (path : Path) (methods : SignatureSet) : List Event :=
  .indexed path methods.size ::
    if (index.declaredIn (archiveKey path)).isSome then [.replaced (archiveKey path)] else []

def ofBuild (files : Workspace) (reader : Zip.Reader) (index : MethodIndex) :
    List Path → List Event × Option MethodIndex
  | [] => ([.indexBuilt index.archiveCount index.all.size], some index)
  | path :: rest =>
    match declaredMethodsIn files path reader with
    | .error _ => ([], none)
    | .ok methods =>
      let (events, built) := ofBuild files reader (index.insert (archiveKey path) methods) rest
      (ofInsert index path methods ++ events, built)

/-- The events of scanning destinations, `count` of which have been scanned before. -/
def ofScan (files : Workspace) (reader : Zip.Reader) (index : MethodIndex) (resolution : Resolution)
    (count : Nat) : List Path → List Event
  | [] => [.crossUsageFinished count]
  | path :: rest =>
    match archiveUsage files reader index resolution path with
    | .error _ => []
    | .ok usage =>
      .scanned path usage.counts.size :: ofScan files reader index resolution (count + 1) rest

/-- A search is reported when it begins, whatever it meets. -/
def ofWalk (files : Workspace) (dir : Path) : List Event :=
  if files.isDirectory dir then [.walkBegun files.workingDirectory] else []

/-- The events of a cross usage. Both directories are searched, the second one only after all
sources have been indexed. -/
def ofCrossUsage (files : Workspace) (sourceDir destDir : Path) (threads : Option Nat)
    (resolution : Resolution) (tools : Tools) : List Event :=
  ofWalk files sourceDir ++
    match files.scan sourceDir tools.walker with
    | .error _ => []
    | .ok sources =>
      match ofBuild files tools.reader .empty sources with
      | (events, none) => events
      | (events, some index) =>
        events ++ ofWalk files destDir ++
          match files.scan destDir tools.walker, tools.workers.setUp threads with
          | .ok dests, .ok () => ofScan files tools.reader index resolution 0 dests
          | _, _ => []

end JarCensus.Journal
