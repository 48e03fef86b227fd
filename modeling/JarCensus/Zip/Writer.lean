import JarCensus.Text.Utf8
import JarCensus.Zip.Archive

/-! Writing an archive whose entries are stored as they are, with UTF-8 names. -/
namespace JarCensus.Zip.Writer

def little : (width : Nat) → Nat → List UInt8
  | 0, _ => []
  | width + 1, value => UInt8.ofNat (value % 256) :: little width (value / 256)

/-- The fields that an entry's own header and its directory header share: version, flags, method,
time, date, checksum, sizes, and the lengths of name and extra field. -/
def sharedFields (name : List UInt8) (content : ByteArray) : List UInt8 :=
  little 2 20 ++ little 2 0x0800 ++ little 2 0 ++ little 4 0 ++
    little 4 (Crc32.checksum content).toNat ++ little 4 content.size ++ little 4 content.size ++
    little 2 name.length ++ little 2 0

def writeEntries (out directory : ByteArray) : List (String × ByteArray) → ByteArray × ByteArray
  | [] => (out, directory)
  | (name, content) :: rest =>
    let rawName := Text.Utf8.encode name.toList
    let fields := sharedFields rawName content
    let own := little 4 Marker.localHeader ++ fields ++ rawName
    let header := little 4 Marker.directoryHeader ++ little 2 20 ++ fields ++ little 2 0 ++
      little 2 0 ++ little 2 0 ++ little 4 0 ++ little 4 out.size ++ rawName
    writeEntries (out ++ own.toByteArray ++ content) (directory ++ header.toByteArray) rest

def archive (entries : List (String × ByteArray)) : ByteArray :=
  let (body, directory) := writeEntries .empty .empty entries
  let record := little 4 Marker.endRecord ++ little 2 0 ++ little 2 0 ++
    little 2 entries.length ++ little 2 entries.length ++ little 4 directory.size ++
    little 4 body.size ++ little 2 0
  body ++ directory ++ record.toByteArray

end JarCensus.Zip.Writer
