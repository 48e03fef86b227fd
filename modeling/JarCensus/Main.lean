import JarCensus.Program

/-! The command line program. It takes a picture of the files that the command line names, runs the
program on that picture, and carries out what came of it. No other program is started from here, so
a check ends with a failure to run the checker. -/
namespace JarCensus.Main

def watched : List String :=
  ["HOME", "XDG_CONFIG_HOME", "PATH", Log.Filter.variableName, Checker.javaVariable] ++
    Config.allSettings.map Setting.variableName

def textOf (place : Place) : String := "/" ++ (Path.ofParts place).display

/-- The place of an absolute path that leads through no links. -/
def placeOf (text : String) : Place := (Path.ofString text).parts.filter (!·.isEmpty)

def typeAt (place : Place) : IO (Option IO.FS.FileType) := do
  let name : Path := ⟨place.getLast?.getD Path.here⟩
  let entry : IO.FS.DirEntry := { root := textOf place.dropLast, fileName := name.display }
  try
    return some (← entry.path.symlinkMetadata).type
  catch _ => return none

def realPlace (place : Place) : IO (Option Place) := do
  try
    let real ← IO.FS.realPath (textOf place)
    return some (placeOf real.toString)
  catch _ => return none

def addAbove (tree : FileTree) (place : Place) : FileTree :=
  ((List.range place.length).drop 1).foldl
    (fun tree length => tree.put (place.take length) .directory) tree

/-- Adds what stands at a place to a picture: a file with its content, a directory with all below it
if `deep`, a link with what it leads to. -/
partial def addPlace (deep : Bool) (tree : FileTree) (place : Place) : IO FileTree := do
  match ← typeAt place with
  | some .dir =>
    let tree := if place.isEmpty then tree else tree.put place .directory
    if !deep then return tree
    let real ← IO.FS.realPath (textOf place)
    (← real.readDir).foldlM
      (fun tree entry => addPlace deep tree (place ++ placeOf entry.fileName)) tree
  | some .file =>
    return tree.put place (.file (← IO.FS.readBinFile (textOf place)))
  | some .symlink =>
    match ← realPlace place with
    | some real =>
      let tree := tree.put place (.link (.ofString (textOf real)))
      match ← typeAt real with
      | some .file => addPlace false (addAbove tree real) real
      | _ => return (addAbove tree real).put real .directory
    | none => return tree.put place (.link (.ofString "/nowhere/at/all"))
  | _ => return tree

/-- Adds to a picture what a path leads through and to, part by part from the directory `here`. -/
def addParts (deep : Bool) : (tree : FileTree) → (here : Place) → List Name → IO FileTree
  | tree, here, [] => addPlace deep tree here
  | tree, here, name :: rest => do
    if Path.isIdle name then addParts deep tree here rest
    else if name = Path.up then addParts deep tree here.dropLast rest
    else
      let place := here ++ [name]
      let tree ← addPlace false tree place
      match ← realPlace place with
      | some real => addParts deep (addAbove tree real) real rest
      | none => return tree

def addPath (deep : Bool) (files : Workspace) (path : Path) : IO Workspace := do
  let start := if path.isAbsolute then [] else files.here
  return { files with tree := ← addParts deep files.tree start path.parts }

def pathsOf (host : Host) (options : Options) : List (Path × Bool) :=
  match options.command with
  | .compare source dest _ _ => [(source, false), (dest, false)]
  | .crossUsage sourceDir destDir output _ _ =>
    [(sourceDir, true), (destDir, true)] ++ output.toList.map (·, false)
  | .check source _ =>
    (source, false) :: (options.config.toList ++ (Config.defaultPath host).toOption.toList).map
      (·, false)

def carryOut (options : Options) (outcome : Program.Outcome) : IO Unit := do
  match options.command with
  | .crossUsage _ _ (some output) _ _ =>
    match output.parent?, outcome.files.read output with
    | some parent, .ok content =>
      if !parent.bytes.isEmpty then IO.FS.createDirAll parent.display
      IO.FS.writeBinFile output.display content
    | _, _ => return
  | _ => return

def say (outcome : Program.Outcome) : IO Unit := do
  for event in outcome.events do
    IO.eprintln event.line
  IO.print outcome.output
  IO.eprint outcome.errors

def bareHost : IO Host := do
  let given ← watched.filterMapM fun name => do
    return (← IO.getEnv name).map (name, ·)
  let here := placeOf (← IO.currentDir).toString
  return {
    files := ⟨addAbove .empty (here ++ [[]]), here⟩
    environment := fun name => given.lookup name
    accountHome := none
    executables := fun _ => none }

def run (arguments : List String) : IO UInt32 := do
  let host ← bareHost
  match CommandLine.parse arguments with
  | .error error =>
    let outcome := Program.refused host error
    say outcome
    return outcome.exitCode
  | .ok options =>
    let files ← (pathsOf host options).foldlM (fun files (path, deep) => addPath deep files path)
      host.files
    let outcome := Program.execute { host with files } options
    if outcome.exitCode = 0 then carryOut options outcome
    say outcome
    return outcome.exitCode

end JarCensus.Main

def main (arguments : List String) : IO UInt32 := JarCensus.Main.run arguments
