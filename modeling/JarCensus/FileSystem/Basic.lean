import JarCensus.FileSystem.Error
import JarCensus.FileSystem.Path
import Std.Data.ExtTreeMap

/-! A file tree: what stands at each place, a place being the list of names that leads to it from
the root through directories. Paths are followed the way the operating system does, through
symbolic links. -/
namespace JarCensus

/-- A way down from the root through real directories. -/
abbrev Place := List Name

inductive Object where
  | file (content : ByteArray)
  | directory
  | link (target : Path)

structure FileTree where
  objects : Std.ExtTreeMap Place Object

namespace FileTree

def empty : FileTree := ⟨∅⟩

/-- What stands at a place. The root is always a directory. -/
def get? (tree : FileTree) (place : Place) : Option Object :=
  if place.isEmpty then some .directory else tree.objects[place]?

def toList (tree : FileTree) : List (Place × Object) := tree.objects.toList

def put (tree : FileTree) (place : Place) (object : Object) : FileTree :=
  ⟨tree.objects.insert place object⟩

def prune (tree : FileTree) (place : Place) : FileTree :=
  ⟨tree.objects.filter fun other _ => !place.isPrefixOf other⟩

def linkLimit : Nat := 40

def nameLimit : Nat := 255

/-- Paths must be shorter than this, in bytes. -/
def pathLimit : Nat := 4096

/-- Where a path leads: to something, or to a free name in a directory, possibly spelled as a
directory's with a slash at its end. -/
inductive Destination where
  | present (place : Place) (object : Object)
  | vacant (place : Place) (slashed : Bool)

inductive Purpose where
  /-- To get to what it leads to. -/
  | reach
  /-- To get to what bears its last name, even if that is a link. -/
  | inspect
  /-- To write a file. Its name must not be spelled as a directory's. -/
  | write
  deriving DecidableEq, Repr

/-- How far names lead without following a link: to a destination, or to a link, in whose place
other names are to be followed from `here`. -/
inductive Stretch where
  | arrived (destination : Destination)
  | linked (here : Place) (names : List Name)

def endsInSlashes (rest : List Name) : Bool := !rest.isEmpty && rest.all List.isEmpty

/-- Follows names from the directory `here` up to the first link that has to be followed. -/
def descend (tree : FileTree) (purpose : Purpose) (here : Place) :
    List Name → Except OsError Stretch
  | [] => .ok (.arrived (.present here .directory))
  | name :: rest =>
    if Path.isIdle name then tree.descend purpose here rest
    else if name = Path.up then tree.descend purpose here.dropLast rest
    else if purpose = .write && endsInSlashes rest then .error .isDirectory
    else if nameLimit < name.length then .error .nameTooLong
    else
      let place := here ++ [name]
      match tree.get? place with
      | none =>
        if rest.all List.isEmpty then .ok (.arrived (.vacant place (!rest.isEmpty)))
        else .error .notFound
      | some (.file content) =>
        if rest.isEmpty then .ok (.arrived (.present place (.file content)))
        else .error .notDirectory
      | some .directory => tree.descend purpose place rest
      | some (.link target) =>
        if rest.isEmpty && purpose = .inspect then .ok (.arrived (.present place (.link target)))
        else .ok (.linked (if target.isAbsolute then [] else here) (target.parts ++ rest))

def walk (tree : FileTree) (purpose : Purpose) :
    (links : Nat) → (here : Place) → List Name → Except OsError Destination
  | links, here, names =>
    match tree.descend purpose here names with
    | .error error => .error error
    | .ok (.arrived destination) => .ok destination
    | .ok (.linked here names) =>
      match links with
      | 0 => .error .tooManyLinks
      | links + 1 => tree.walk purpose links here names

end FileTree

structure Workspace where
  tree : FileTree
  here : Place

namespace Workspace

open FileTree (Destination Purpose linkLimit pathLimit)

def workingDirectory (files : Workspace) : Path := .ofParts ([] :: files.here)

def locate (files : Workspace) (purpose : Purpose) (path : Path) :
    Except IoError Destination :=
  if path.bytes.contains 0 then .error .nulInPath
  else if path.bytes.isEmpty then .error (.os .notFound)
  else if pathLimit ≤ path.bytes.length then .error (.os .nameTooLong)
  else
    (files.tree.walk purpose linkLimit (if path.isAbsolute then [] else files.here)
      path.parts).mapError .os

def find (files : Workspace) (path : Path) : Except IoError (Place × Object) := do
  match ← files.locate .reach path with
  | .present place object => return (place, object)
  | .vacant _ _ => throw (.os .notFound)

def isFile (files : Workspace) (path : Path) : Bool :=
  match files.find path with
  | .ok (_, .file _) => true
  | _ => false

def isDirectory (files : Workspace) (path : Path) : Bool :=
  match files.find path with
  | .ok (_, .directory) => true
  | _ => false

def leads (files : Workspace) (path : Path) : Bool := (files.find path).isOk

def read (files : Workspace) (path : Path) : Except IoError ByteArray := do
  match ← files.find path with
  | (_, .file content) => return content
  | (_, .directory) => throw (.os .isDirectory)
  | (_, .link _) => throw (.os .tooManyLinks)

def put (files : Workspace) (place : Place) (object : Object) : Workspace :=
  { files with tree := files.tree.put place object }

/-- Writes a file, new or in the place of an old one. A link is written through; where it leads to
a free name the file is made there. -/
def write (files : Workspace) (path : Path) (content : ByteArray) : Except IoError Workspace := do
  match ← files.locate .write path with
  | .vacant place false => return files.put place (.file content)
  | .present place (.file _) => return files.put place (.file content)
  | .vacant _ true => throw (.os .isDirectory)
  | .present _ .directory => throw (.os .isDirectory)
  | .present _ (.link _) => throw (.os .tooManyLinks)

def makeDirectory (files : Workspace) (path : Path) : Except IoError Workspace := do
  match ← files.locate .inspect path with
  | .vacant place _ => return files.put place .directory
  | .present _ _ => throw (.os .alreadyExists)

def ensureDirectory (files : Workspace) (path : Path) : Except IoError Workspace :=
  match files.makeDirectory path with
  | .ok made => .ok made
  | .error error => if files.isDirectory path then .ok files else .error error

/-- A path and what it lies in, innermost first, up to the empty path. There are at most `fuel` of
them. -/
def lineage : (fuel : Nat) → Path → List Path
  | 0, _ => []
  | fuel + 1, path =>
    if path.bytes.isEmpty then []
    else path :: match path.parent? with
      | none => []
      | some parent => lineage fuel parent

/-- The paths of a lineage that still have to be made, outermost first: those up to the first one
that can be made or is there. -/
def unmade (files : Workspace) (done : List Path) : List Path → Except IoError (List Path)
  | [] => .ok done
  | path :: rest =>
    match files.makeDirectory path with
    | .ok _ => .ok (path :: done)
    | .error (.os .notFound) => files.unmade (path :: done) rest
    | .error error => if files.isDirectory path then .ok done else .error error

/-- Makes directories one after the other. What was made before a failure stays. -/
def ensureAll (files : Workspace) : List Path → Workspace × Except IoError Unit
  | [] => (files, .ok ())
  | path :: rest =>
    match files.ensureDirectory path with
    | .ok files => files.ensureAll rest
    | .error error => (files, .error error)

def makeDirectories (files : Workspace) (path : Path) : Workspace × Except IoError Unit :=
  match files.unmade [] (lineage (path.bytes.length + 1) path) with
  | .ok missing => files.ensureAll missing
  | .error error => (files, .error error)

def makeLink (files : Workspace) (path target : Path) : Except IoError Workspace := do
  match ← files.locate .inspect path with
  | .vacant place false => return files.put place (.link target)
  | .vacant _ true => throw (.os .notFound)
  | .present _ _ => throw (.os .alreadyExists)

def remove (files : Workspace) (path : Path) : Except IoError Workspace := do
  match ← files.locate .inspect path with
  | .present place _ => return { files with tree := files.tree.prune place }
  | .vacant _ _ => throw (.os .notFound)

end Workspace

end JarCensus
