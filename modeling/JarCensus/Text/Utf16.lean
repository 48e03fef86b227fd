import JarCensus.Text.Utf8

/-! Text as a sequence of 16-bit units. A high unit followed by a low one is a character past
U+FFFF; a surrogate without its partner is read as U+FFFD. -/
namespace JarCensus.Text.Utf16

def isHigh (unit : UInt16) : Bool := 0xD800 ≤ unit && unit ≤ 0xDBFF

def isLow (unit : UInt16) : Bool := 0xDC00 ≤ unit && unit ≤ 0xDFFF

def pair (high low : UInt16) : Char :=
  Char.ofNat (0x10000 + (high.toNat - 0xD800) * 0x400 + (low.toNat - 0xDC00))

/-- The character of a unit that is not half of a pair. -/
def single (unit : UInt16) : Char :=
  if isHigh unit || isLow unit then Utf8.replacement else Char.ofNat unit.toNat

def lossyFrom (done : List Char) : List UInt16 → List Char
  | [] => done.reverse
  | [unit] => (single unit :: done).reverse
  | first :: second :: rest =>
    if isHigh first && isLow second then lossyFrom (pair first second :: done) rest
    else lossyFrom (single first :: done) (second :: rest)

/-- The characters of `units`, each unpaired surrogate as one U+FFFD. -/
def lossy (units : List UInt16) : List Char := lossyFrom [] units

def unitsOf (c : Char) : List UInt16 :=
  if c.toNat < 0x10000 then [UInt16.ofNat c.toNat]
  else
    [UInt16.ofNat (0xD800 + (c.toNat - 0x10000) / 0x400),
      UInt16.ofNat (0xDC00 + (c.toNat - 0x10000) % 0x400)]

end JarCensus.Text.Utf16
