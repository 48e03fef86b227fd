import JarCensus.Failure
import JarCensus.FileSystem.Basic

/-! Finding every file below a directory. Threads that search side by side find files in no fixed
order, so what they have found is put in path order at the end. The first error that one of them
meets ends the search of all. -/
namespace JarCensus

/-- Whether all the directories that `names` leads through, starting at `top`, are real. -/
def FileTree.throughDirectories (tree : FileTree) (top : Place) : List Name → Bool
  | [] => true
  | [_] => true
  | name :: rest =>
    match tree.get? (top ++ [name]) with
    | some .directory => tree.throughDirectories (top ++ [name]) rest
    | _ => false

def FileTree.namesBelow? (tree : FileTree) (top place : Place) : Option (List Name) :=
  if top.isPrefixOf place && top.length < place.length &&
      tree.throughDirectories top (place.drop top.length) then
    some (place.drop top.length)
  else none

/-- The names that lead from `top` to each object below it, in ascending order, with the object. -/
def FileTree.below (tree : FileTree) (top : Place) : List (List Name × Object) :=
  tree.toList.filterMap fun entry =>
    (tree.namesBelow? top entry.1).map fun names => (names, entry.2)

def Workspace.pathBelow (base : Path) (names : List Name) : Path :=
  base.join (Path.ofParts names).bytes

/-- What a search comes past: an object, by the names that lead to it, or an error. -/
abbrev Arrival := Except ForeignError (List Name × Object)

structure Walker where
  /-- What is met below the place `top` that `base` leads to, in the order in which it is met. -/
  deliver (files : Workspace) (base : Path) (top : Place) : List Arrival

namespace Walker

/-- The name `-` stands for standard input, which has no files below it. -/
def isStandardInput (base : Path) : Bool :=
  match base.parts with
  | [] => false
  | first :: rest => first = [0x2D] && rest.all Path.isIdle

/-- Why what lies in an object cannot be listed. Directories are opened by their paths, so one that
lies too deep is out of reach. -/
def fault? (files : Workspace) (base : Path) (names : List Name) : Object → Option ForeignError
  | .directory =>
    let path := Workspace.pathBelow base names
    match files.find path with
    | .ok _ => none
    | .error error => some ⟨[path.display ++ ": " ++ error.message]⟩
  | _ => none

/-- The search of one thread, in ascending order of names. -/
def inOrder : Walker where
  deliver files base top :=
    if isStandardInput base then []
    else (files.tree.below top).flatMap fun entry =>
      .ok entry :: (fault? files base entry.1 entry.2).toList.map .error

end Walker

namespace Workspace

/-- The path of an object below `base`, if it counts as a file: a regular file, or a link that leads
to one. -/
def filePath? (files : Workspace) (base : Path) (names : List Name) (object : Object) :
    Option Path :=
  match object with
  | .file _ => some (pathBelow base names)
  | .directory => none
  | .link _ =>
    if files.isFile (pathBelow base names) then some (pathBelow base names) else none

def filesAmong (files : Workspace) (base : Path) (entries : List (List Name × Object)) :
    List Path :=
  entries.filterMap fun entry => files.filePath? base entry.1 entry.2

/-- Every file below the directory `base`, in path order. Links to directories are not descended
into. -/
def scan (files : Workspace) (base : Path) (walker : Walker := .inOrder) :
    Except Failure (List Path) :=
  match files.find base with
  | .ok (top, .directory) => do
    -- Whatever still arrives after an error is not looked at.
    let entries ← foreignDuring (.walk base) ((walker.deliver files base top).mapM id)
    return Path.sort (files.filesAmong base entries)
  | _ => .error (.ofCause (.notDirectory base))

end Workspace

end JarCensus
