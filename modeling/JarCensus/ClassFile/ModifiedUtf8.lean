import JarCensus.FormatError
import JarCensus.Text.Utf16

/-! Text of the constant pool: 16-bit units in groups of one, two or three bytes. Groups may be
longer than their unit needs, so NUL can be written with two bytes. -/
namespace JarCensus.ClassFile.ModifiedUtf8

/-- First bytes `110xxxxx` open a group of two. -/
def opensTwo (byte : UInt8) : Bool := 0xC0 ≤ byte && byte ≤ 0xDF

/-- First bytes `1110xxxx` open a group of three. -/
def opensThree (byte : UInt8) : Bool := 0xE0 ≤ byte && byte ≤ 0xEF

def unitOfTwo (a b : UInt8) : UInt16 :=
  UInt16.ofNat (a.toNat % 0x20 * 0x40 + b.toNat % 0x40)

def unitOfThree (a b c : UInt8) : UInt16 :=
  UInt16.ofNat ((a.toNat % 0x10 * 0x40 + b.toNat % 0x40) * 0x40 + c.toNat % 0x40)

open Text.Utf8 (isContinuation)

/-- Reads groups onto `done`, latest unit first. -/
def unitsFrom (done : List UInt16) : List UInt8 → Except FormatError (List UInt16)
  | [] => .ok done.reverse
  | a :: rest =>
    if a < 0x80 then unitsFrom (a.toUInt16 :: done) rest
    else match rest with
      | b :: rest =>
        if opensTwo a && isContinuation b then unitsFrom (unitOfTwo a b :: done) rest
        else match rest with
          | c :: rest =>
            if opensThree a && isContinuation b && isContinuation c then
              unitsFrom (unitOfThree a b c :: done) rest
            else .error .badText
          | [] => .error .badText
      | [] => .error .badText

def units (bytes : List UInt8) : Except FormatError (List UInt16) := unitsFrom [] bytes

/-- Unpaired surrogates become U+FFFD; only malformed groups are refused. -/
def decodeUnits (bytes : List UInt8) : Except FormatError String := do
  return String.ofList (Text.Utf16.lossy (← units bytes))

/-- The text of a constant. ASCII is taken as it stands; other text goes through its units. -/
def decode (bytes : List UInt8) : Except FormatError String :=
  if bytes.all (· < 0x80) then .ok (String.ofList (Text.Utf8.lossy bytes))
  else decodeUnits bytes

end JarCensus.ClassFile.ModifiedUtf8
