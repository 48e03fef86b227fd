/-! UTF-8 over lists of bytes. A malformed stretch ends before the first byte that cannot
continue it; strict reading refuses it, lossy reading puts one U+FFFD in its place. -/
namespace JarCensus.Text.Utf8

def replacement : Char := '\uFFFD'

/-- Bytes `10xxxxxx` continue a character. -/
def isContinuation (byte : UInt8) : Bool := 0x80 ≤ byte && byte ≤ 0xBF

/-- What the first byte of a longer character promises: how many bytes follow, the range of the
second byte (which excludes overlong forms, surrogates and values past U+10FFFF), and its own
payload. -/
structure Lead where
  following : Nat
  low : UInt8
  high : UInt8
  payload : Nat
  deriving DecidableEq, Repr

/-- The promise of a byte that is not ASCII; `none` when no character starts with it. -/
def lead (byte : UInt8) : Option Lead :=
  if byte < 0xC2 then none
  else if byte < 0xE0 then some ⟨1, 0x80, 0xBF, byte.toNat - 0xC0⟩
  else if byte = 0xE0 then some ⟨2, 0xA0, 0xBF, 0⟩
  else if byte = 0xED then some ⟨2, 0x80, 0x9F, 13⟩
  else if byte < 0xF0 then some ⟨2, 0x80, 0xBF, byte.toNat - 0xE0⟩
  else if byte = 0xF0 then some ⟨3, 0x90, 0xBF, 0⟩
  else if byte < 0xF4 then some ⟨3, 0x80, 0xBF, byte.toNat - 0xF0⟩
  else if byte = 0xF4 then some ⟨3, 0x80, 0x8F, 4⟩
  else none

/-- Reads `missing` continuation bytes onto `value`; also says how many bytes after the first were
used, whether or not the character came to an end. -/
def continued : (missing value used : Nat) → List UInt8 → Option Char × Nat
  | 0, value, used, _ => (some (Char.ofNat value), used)
  | missing + 1, value, used, byte :: rest =>
    if isContinuation byte then continued missing (value * 64 + byte.toNat % 64) (used + 1) rest
    else (none, used)
  | _ + 1, _, used, [] => (none, used)

/-- The character that starts with `first`, or `none` for a malformed stretch, and how many of the
following bytes belong to it. -/
def next (first : UInt8) (rest : List UInt8) : Option Char × Nat :=
  if first < 0x80 then (some (Char.ofNat first.toNat), 0)
  else match lead first, rest with
    | some l, second :: rest =>
      if l.low ≤ second && second ≤ l.high then
        continued (l.following - 1) (l.payload * 64 + second.toNat % 64) 1 rest
      else (none, 0)
    | _, _ => (none, 0)

def lossyFrom (done : List Char) : (skip : Nat) → List UInt8 → List Char
  | _, [] => done.reverse
  | skip + 1, _ :: rest => lossyFrom done skip rest
  | 0, byte :: rest =>
    lossyFrom ((next byte rest).1.getD replacement :: done) (next byte rest).2 rest

def lossy (bytes : List UInt8) : List Char := lossyFrom [] 0 bytes

def decodeFrom (done : List Char) : (skip : Nat) → List UInt8 → Option (List Char)
  | _, [] => some done.reverse
  | skip + 1, _ :: rest => decodeFrom done skip rest
  | 0, byte :: rest =>
    match next byte rest with
    | (some c, used) => decodeFrom (c :: done) used rest
    | (none, _) => none

def decode? (bytes : List UInt8) : Option (List Char) := decodeFrom [] 0 bytes

def encode (text : List Char) : List UInt8 := text.flatMap String.utf8EncodeChar

end JarCensus.Text.Utf8
