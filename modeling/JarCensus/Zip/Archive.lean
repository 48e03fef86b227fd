import JarCensus.FileSystem.Error
import JarCensus.Zip.CodePage437
import JarCensus.Zip.Crc32
import JarCensus.Zip.Error
import JarCensus.Zip.Inflate

/-! Zip archives: an end record at the back leads to the directory, whose headers lead to the
entries. Names, sizes, methods and checksums are taken from the directory; an entry's own header
only says where its data begins. Data put in front of an archive shifts all of its offsets. -/
namespace JarCensus.Zip

def word16? (data : ByteArray) (position : Nat) : Option Nat := do
  let a ← data[position]?
  let b ← data[position + 1]?
  return a.toNat + b.toNat * 256

def word32? (data : ByteArray) (position : Nat) : Option Nat := do
  let low ← word16? data position
  let high ← word16? data (position + 2)
  return low + high * 65536

def need {α : Type} (value : Option α) : Except ZipError α :=
  match value with
  | some a => .ok a
  | none => .error .unexpectedEnd

namespace Marker

def localHeader : Nat := 0x04034B50
def directoryHeader : Nat := 0x02014B50
def endRecord : Nat := 0x06054B50

end Marker

structure EndRecord where
  disk : Nat
  directoryDisk : Nat
  entriesHere : Nat
  entries : Nat
  directorySize : Nat
  directoryOffset : Nat
  deriving DecidableEq, Repr

namespace EndRecord

def size : Nat := 22

def find? (data : ByteArray) : (steps position : Nat) → Option Nat
  | 0, _ => none
  | steps + 1, position =>
    if word32? data position = some Marker.endRecord then some position
    else find? data steps (position - 1)

/-- Reads the record at `position`, whose comment must not reach past the end. -/
def read (data : ByteArray) (position : Nat) : Except ZipError EndRecord := do
  let record : EndRecord := {
    disk := ← need (word16? data (position + 4))
    directoryDisk := ← need (word16? data (position + 6))
    entriesHere := ← need (word16? data (position + 8))
    entries := ← need (word16? data (position + 10))
    directorySize := ← need (word32? data (position + 12))
    directoryOffset := ← need (word32? data (position + 16)) }
  let comment ← need (word16? data (position + 20))
  if data.size < position + size + comment then throw .unexpectedEnd
  return record

/-- A field of ones says that its value does not fit and is found elsewhere. -/
def overflows (record : EndRecord) : Bool :=
  record.disk = 0xFFFF || record.directoryDisk = 0xFFFF || record.entriesHere = 0xFFFF ||
    record.entries = 0xFFFF || record.directorySize = 0xFFFFFFFF ||
    record.directoryOffset = 0xFFFFFFFF

end EndRecord

structure Entry where
  name : String
  encrypted : Bool
  method : Nat
  checksum : UInt32
  compressedSize : Nat
  /-- Where the entry's own header begins. -/
  position : Nat
  deriving DecidableEq, Repr

def directoryHeaderSize : Nat := 46

/-- Reads the directory header at `position` of an archive that begins at `shift`; also says where
the next header begins. -/
def readHeader (data : ByteArray) (shift position : Nat) : Except ZipError (Entry × Nat) := do
  if (← need (word32? data position)) ≠ Marker.directoryHeader then throw .badDirectoryHeader
  let flags ← need (word16? data (position + 8))
  let method ← need (word16? data (position + 10))
  let checksum ← need (word32? data (position + 16))
  let compressedSize ← need (word32? data (position + 20))
  let nameLength ← need (word16? data (position + 28))
  let extraLength ← need (word16? data (position + 30))
  let commentLength ← need (word16? data (position + 32))
  let offset ← need (word32? data (position + 42))
  let nameStart := position + directoryHeaderSize
  let next := nameStart + nameLength + extraLength + commentLength
  if data.size < next then throw .unexpectedEnd
  let rawName := (data.extract nameStart (nameStart + nameLength)).toList
  let name := if flags.testBit 11 then Text.Utf8.lossy rawName else CodePage437.decode rawName
  return ({
    name := String.ofList name
    encrypted := flags.testBit 0
    method
    checksum := UInt32.ofNat checksum
    compressedSize
    position := shift + offset }, next)

def readHeaders (data : ByteArray) (shift : Nat) :
    (count position : Nat) → List Entry → Except ZipError (List Entry)
  | 0, _, done => .ok done.reverse
  | count + 1, position, done =>
    match readHeader data shift position with
    | .ok (entry, next) => readHeaders data shift count next (entry :: done)
    | .error error => .error error

def entries (data : ByteArray) : Except ZipError (List Entry) := do
  if data.size < EndRecord.size then throw .badHeader
  let last := data.size - EndRecord.size
  match EndRecord.find? data (min last 65535 + 1) last with
  | none => throw .noEndRecord
  | some position =>
    let record ← EndRecord.read data position
    if !record.overflows && record.disk ≠ record.directoryDisk then throw .severalDisks
    if position < record.directorySize + record.directoryOffset then throw .badDirectoryBounds
    let shift := position - record.directorySize - record.directoryOffset
    readHeaders data shift record.entriesHere (record.directoryOffset + shift) []

inductive Compression where
  | stored
  | deflated
  deriving DecidableEq, Repr

structure Located where
  compression : Compression
  start : Nat
  deriving DecidableEq, Repr

/-- Locates an entry's data: after its own header, whose name and extra field may differ in length
from those of the directory. -/
def locate (data : ByteArray) (entry : Entry) : Except ZipError Located := do
  if entry.encrypted then throw .encrypted
  if (← need (word32? data entry.position)) ≠ Marker.localHeader then throw .badLocalHeader
  let nameLength ← need (word16? data (entry.position + 26))
  let extraLength ← need (word16? data (entry.position + 28))
  let start := entry.position + 30 + nameLength + extraLength
  if entry.method = 0 then return ⟨.stored, start⟩
  else if entry.method = 8 then return ⟨.deflated, start⟩
  else throw .unknownMethod

/-- The content of a located entry. Data that would reach past the end of the archive is cut there;
the checksum must fit what was read. -/
def content (data : ByteArray) (entry : Entry) (located : Located) : Except IoError ByteArray := do
  let raw := data.extract located.start (located.start + entry.compressedSize)
  let bytes ← match located.compression with
    | .stored => pure raw
    | .deflated =>
      (Inflate.inflate raw).mapError fun
        | .corrupt => .corruptDeflate
        | .incomplete => .incompleteDeflate
  if Crc32.checksum bytes = entry.checksum then return bytes else throw .badChecksum

structure Member where
  name : String
  content : Unit → Except IoError ByteArray

/-- A reader of archives: their entries in directory order, each as far as it can be read. Formats
differ in what they allow, so no more than this is asked of a reader. -/
structure Reader where
  members (data : ByteArray) : Except ZipError (List (Except ZipError Member))

def member (data : ByteArray) (entry : Entry) : Except ZipError Member := do
  let located ← locate data entry
  return ⟨entry.name, fun _ => content data entry located⟩

/-- The reader of archives with numbers of at most 32 bits, neither encrypted nor in parts. -/
def Reader.standard : Reader where
  members data := (entries data).map (List.map (member data))

end JarCensus.Zip
