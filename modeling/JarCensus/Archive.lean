import JarCensus.ClassFile.Decode
import JarCensus.Failure
import JarCensus.FileSystem.Basic
import JarCensus.Zip.Archive

/-! Archives of compiled classes. -/
namespace JarCensus

/-- The name that an archive is filed under: the last name of its path, or all of the path if it has
none. -/
def archiveKey (path : Path) : String :=
  match path.fileName? with
  | some name => String.ofList (Text.Utf8.lossy name)
  | none => path.display

namespace Archive

/-- The bytes of the archive at a path. A directory opens but cannot be mapped. -/
def bytes (files : Workspace) (path : Path) : Except Failure ByteArray :=
  match ioDuring (.openArchive path) (files.find path) with
  | .error failure => .error failure
  | .ok (_, .file content) => .ok content
  | .ok _ => .error ⟨[.mapArchive path], .io (.os .noDevice)⟩

def classSuffix : List Char := ".class".toList

/-- Gives each class entry's name and content to `visit`, in order, up to the first failure. Every
entry must be readable; the content of those that are not classes is not read. -/
def visitFrom {α : Type} (path : Path) (visit : String → ByteArray → Except Failure α) :
    (index : Nat) → List (Except Zip.ZipError Zip.Member) → (done : List α) →
      Except Failure (List α)
  | _, [], done => .ok done.reverse
  | index, .error error :: _, _ => .error ⟨[.readEntry index path], .zip error⟩
  | index, .ok member :: rest, done =>
    if classSuffix.isSuffixOf member.name.toList then
      match ioDuring (.readContent member.name path) (member.content ()) >>= visit member.name with
      | .error failure => .error failure
      | .ok result => visitFrom path visit (index + 1) rest (result :: done)
    else visitFrom path visit (index + 1) rest done

def visitClasses {α : Type} (files : Workspace) (path : Path) (reader : Zip.Reader)
    (visit : String → ByteArray → Except Failure α) : Except Failure (List α) := do
  let data ← bytes files path
  let members ← (reader.members data).mapError fun error => ⟨[.readContainer path], .zip error⟩
  visitFrom path visit 0 members []

def classEntries (files : Workspace) (path : Path) (reader : Zip.Reader := .standard) :
    Except Failure (List (String × ByteArray)) :=
  visitClasses files path reader fun name content => .ok (name, content)

def loadClasses (files : Workspace) (path : Path) (reader : Zip.Reader := .standard) :
    Except Failure (List ClassFile) :=
  visitClasses files path reader fun name content =>
    formatDuring (.decodeClass name path) (ClassFile.decode content.toList)

end Archive

end JarCensus
