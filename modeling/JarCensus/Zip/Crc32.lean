/-! The CRC-32 checksum of zip entries, bit by bit. -/
namespace JarCensus.Zip.Crc32

/-- The generator polynomial, lowest bit first. -/
def polynomial : UInt32 := 0xEDB88320

def shift (register : UInt32) : UInt32 :=
  if register &&& 1 = 1 then (register >>> 1) ^^^ polynomial else register >>> 1

def feed (register : UInt32) (byte : UInt8) : UInt32 :=
  shift (shift (shift (shift (shift (shift (shift (shift (register ^^^ byte.toUInt32))))))))

def checksum (data : ByteArray) : UInt32 := data.foldl feed 0xFFFFFFFF ^^^ 0xFFFFFFFF

end JarCensus.Zip.Crc32
