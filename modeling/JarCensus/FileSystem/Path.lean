import JarCensus.Text.Search
import JarCensus.Text.Utf8

/-! Paths are byte strings. Their parts are what stands between slashes; empty parts and `.` count
only where they decide what the path means. -/
namespace JarCensus

/-- A name of a file system: the bytes between two slashes. -/
abbrev Name := List UInt8

structure Path where
  bytes : List UInt8
  deriving DecidableEq, Repr

namespace Path

def slash : UInt8 := 0x2F

def here : Name := [0x2E]

def up : Name := [0x2E, 0x2E]

def ofString (text : String) : Path := ⟨Text.Utf8.encode text.toList⟩

/-- The path as messages show it: bytes that are not UTF-8 as U+FFFD. -/
def display (path : Path) : String := String.ofList (Text.Utf8.lossy path.bytes)

def text? (path : Path) : Option String := (Text.Utf8.decode? path.bytes).map String.ofList

def isAbsolute (path : Path) : Bool := path.bytes.head? = some slash

/-- What stands between slashes, empty parts included. -/
def parts (path : Path) : List Name := Text.pieces (· = slash) path.bytes

def ofParts (parts : List Name) : Path := ⟨List.intercalate [slash] parts⟩

def join (path : Path) (name : List UInt8) : Path :=
  if path.bytes.isEmpty || path.bytes.getLast? = some slash then ⟨path.bytes ++ name⟩
  else ⟨path.bytes ++ slash :: name⟩

/-- Parts that do not lead anywhere else. -/
def isIdle (part : Name) : Bool := part.isEmpty || part = here

/-- The name a path ends in, passing over slashes and `.` at the end; none if it ends in `..` or
has no name. -/
def fileName? (path : Path) : Option Name :=
  match (path.parts.filter (!isIdle ·)).getLast? with
  | some name => if name = up then none else some name
  | none => none

def trimIdle (parts : List Name) : List Name := (parts.reverse.dropWhile isIdle).reverse

/-- The path without its last part, and without slashes and `.` before that. A leading `.` is a
part of its own; the root and the empty path have no parent. -/
def parent? (path : Path) : Option Path :=
  match path.parts with
  | [] => none
  | first :: rest =>
    match trimIdle rest with
    | [] => if first.isEmpty then none else some ⟨[]⟩
    | kept@(_ :: _) =>
      match trimIdle kept.dropLast with
      | [] => some (if first.isEmpty then ⟨[slash]⟩ else ⟨first⟩)
      | before => some (ofParts (first :: before))

inductive Component where
  | root
  | here
  | up
  | down (name : Name)
  deriving DecidableEq, Repr

namespace Component

def ofPart (part : Name) : Component := if part = Path.up then .up else .down part

/-- What components are compared by: the root comes first, then `.`, then `..`, and last all names,
by their bytes. -/
def key : Component → List UInt8
  | .root => [0]
  | .here => [1]
  | .up => [2]
  | .down name => 3 :: name

end Component

/-- The steps of a path. A `.` is one only where the path starts with it. -/
def components (path : Path) : List Component :=
  (if path.isAbsolute then [.root] else if path.parts.head? = some here then [.here] else []) ++
    (path.parts.filter (!isIdle ·)).map .ofPart

def key (path : Path) : List (List UInt8) := path.components.map Component.key

def before (a b : Path) : Bool := a.key ≤ b.key

def sort (paths : List Path) : List Path := paths.mergeSort before

end Path

end JarCensus
