import JarCensus.Failure

/-! Reading a configuration document: a JSON object with up to three keys, or an array of exactly
three values. The first fault from left to right is reported, by its kind. -/
namespace JarCensus

structure Config where
  checkerJar : Option String := none
  classpath : Option String := none
  processors : Option String := none
  deriving DecidableEq, Repr

namespace Config

abbrev Bytes := List UInt8

def byteOf (c : Char) : UInt8 := UInt8.ofNat c.toNat

def isSpace (byte : UInt8) : Bool :=
  byte = byteOf ' ' || byte = byteOf '\t' || byte = byteOf '\n' || byte = byteOf '\r'

def skipSpace (bytes : Bytes) : Bytes := bytes.dropWhile isSpace

def isDigit (byte : UInt8) : Bool := byteOf '0' ≤ byte && byte ≤ byteOf '9'

def hexValue? (byte : UInt8) : Option Nat := Text.hexValue? (Char.ofNat byte.toNat)

def unit? (a b c d : UInt8) : Option Nat := do
  return (((← hexValue? a) * 16 + (← hexValue? b)) * 16 + (← hexValue? c)) * 16 + (← hexValue? d)

def escaped? (letter : UInt8) : Option UInt8 :=
  if letter = byteOf '"' || letter = byteOf '\\' || letter = byteOf '/' then some letter
  else if letter = byteOf 'b' then some 0x08
  else if letter = byteOf 'f' then some 0x0C
  else if letter = byteOf 'n' then some 0x0A
  else if letter = byteOf 'r' then some 0x0D
  else if letter = byteOf 't' then some 0x09
  else none

def isHighUnit (unit : Nat) : Bool := 0xD800 ≤ unit && unit ≤ 0xDBFF

def isLowUnit (unit : Nat) : Bool := 0xDC00 ≤ unit && unit ≤ 0xDFFF

def characterReversed (number : Nat) : Bytes :=
  (String.utf8EncodeChar (Char.ofNat number)).reverse

/-- Reads a string after its opening quote onto `done`, latest byte first; also gives what follows
the closing quote. Surrogates must come in pairs. -/
def stringFrom (done : Bytes) : Bytes → Except DocumentFault (Bytes × Bytes)
  | [] => .error .ended
  | byte :: rest =>
    if byte = byteOf '"' then .ok (done.reverse, rest)
    else if byte < 0x20 then .error .malformed
    else if byte ≠ byteOf '\\' then stringFrom (byte :: done) rest
    else match rest with
      | [] => .error .ended
      | letter :: rest =>
        if letter ≠ byteOf 'u' then
          match escaped? letter with
          | some meant => stringFrom (meant :: done) rest
          | none => .error .malformed
        else match rest with
          | a :: b :: c :: d :: rest =>
            match unit? a b c d with
            | none => .error .malformed
            | some unit =>
              if isLowUnit unit then .error .malformed
              else if !isHighUnit unit then stringFrom (characterReversed unit ++ done) rest
              else match rest with
                | [] => .error .ended
                | slash :: rest =>
                  if slash ≠ byteOf '\\' then .error .malformed
                  else match rest with
                    | [] => .error .ended
                    | letter :: rest =>
                      if letter ≠ byteOf 'u' then .error .malformed
                      else match rest with
                        | a :: b :: c :: d :: rest =>
                          match unit? a b c d with
                          | none => .error .malformed
                          | some low =>
                            if isLowUnit low then
                              let number := 0x10000 + (unit - 0xD800) * 0x400 + (low - 0xDC00)
                              stringFrom (characterReversed number ++ done) rest
                            else .error .malformed
                        | _ => .error .ended
          | _ => .error .ended

def readString (bytes : Bytes) : Except DocumentFault (String × Bytes) := do
  let (text, rest) ← stringFrom [] bytes
  return (String.ofList (Text.Utf8.lossy text), rest)

def expectWord : (word : List Char) → Bytes → Except DocumentFault Bytes
  | [], bytes => .ok bytes
  | _ :: _, [] => .error .ended
  | c :: word, byte :: rest =>
    if byte = byteOf c then expectWord word rest else .error .malformed

/-- `n` rounded to 53 significant bits, a tie to the even neighbour. -/
def round53 (n : Nat) : Nat :=
  let drop := n.log2 + 1 - 53
  let unit := Nat.pow 2 drop
  let quotient := n / unit
  let remainder := n % unit
  let up := unit < 2 * remainder || (unit = 2 * remainder && quotient % 2 = 1)
  (if up then quotient + 1 else quotient) * unit

/-- Products from here on round past the largest 64-bit floating point number. -/
def floatLimit : Nat := Nat.pow 2 1024 - Nat.pow 2 970

/-- Whether `significand` times ten to the `exponent` is too large for a 64-bit floating point
number, when both factors are rounded first. -/
def outOfRange (significand : Nat) (exponent : Int) : Bool :=
  significand ≠ 0 && 0 ≤ exponent &&
    (308 < exponent || floatLimit ≤ round53 significand * round53 (Nat.pow 10 exponent.toNat))

def significandLimit : Nat := Nat.pow 2 64

def exponentLimit : Nat := Nat.pow 2 31

/-- What a number of this size makes of a document that has no place for numbers. -/
def finish (significand : Nat) (exponent : Int) : DocumentFault :=
  if outOfRange significand exponent then .malformed else .unsuitable

def exponentDigits (significand : Nat) (start : Int) (positive : Bool) (exponent : Nat) :
    Bytes → DocumentFault
  | [] => finish significand (if positive then start + exponent else start - exponent)
  | byte :: rest =>
    if isDigit byte then
      let exponent := exponent * 10 + (byte.toNat - 0x30)
      if exponentLimit ≤ exponent then
        if significand ≠ 0 && positive then .malformed else .unsuitable
      else exponentDigits significand start positive exponent rest
    else finish significand (if positive then start + exponent else start - exponent)

def exponentFault (significand : Nat) (start : Int) (bytes : Bytes) : DocumentFault :=
  let (positive, digits) := match bytes with
    | sign :: rest =>
      if sign = byteOf '+' then (true, rest)
      else if sign = byteOf '-' then (false, rest)
      else (true, bytes)
    | [] => (true, [])
  match digits with
  | [] => .ended
  | first :: _ => if isDigit first then exponentDigits significand start positive 0 digits
    else .malformed

def isExponentMark (byte : UInt8) : Bool := byte = byteOf 'e' || byte = byteOf 'E'

def afterDigits (significand : Nat) (exponent : Int) : Bytes → DocumentFault
  | [] => finish significand exponent
  | byte :: rest =>
    if isExponentMark byte then exponentFault significand exponent rest
    else finish significand exponent

/-- The digits after a decimal point. Once the significand is full, more digits change nothing. -/
def fractionDigits (significand : Nat) (exponent : Int) : Bytes → DocumentFault
  | [] => finish significand exponent
  | byte :: rest =>
    if isDigit byte then
      let next := significand * 10 + (byte.toNat - 0x30)
      if significandLimit ≤ next then afterDigits significand exponent (rest.dropWhile isDigit)
      else fractionDigits next (exponent - 1) rest
    else afterDigits significand exponent (byte :: rest)

def fractionFault (significand : Nat) (exponent : Int) (bytes : Bytes) : DocumentFault :=
  match bytes with
  | [] => .ended
  | byte :: _ => if isDigit byte then fractionDigits significand exponent bytes else .malformed

def afterInteger (significand : Nat) (exponent : Int) (bytes : Bytes) : DocumentFault :=
  match bytes with
  | byte :: rest =>
    if byte = byteOf '.' then fractionFault significand exponent rest
    else afterDigits significand exponent bytes
  | [] => finish significand exponent

/-- The digits of an integer part. Once the significand is full, more digits only scale it. -/
def integerDigits (significand : Nat) : Bytes → DocumentFault
  | [] => finish significand 0
  | byte :: rest =>
    if isDigit byte then
      let next := significand * 10 + (byte.toNat - 0x30)
      if significandLimit ≤ next then
        let more := (byte :: rest).takeWhile isDigit
        afterInteger significand more.length ((byte :: rest).dropWhile isDigit)
      else integerDigits next rest
    else afterInteger significand 0 (byte :: rest)

/-- A number after its sign. A zero must not be followed by a digit. -/
def numberFault (bytes : Bytes) : DocumentFault :=
  match bytes with
  | [] => .ended
  | first :: rest =>
    if first = byteOf '0' then
      match rest with
      | [] => .unsuitable
      | next :: _ => if isDigit next then .malformed else afterInteger 0 0 rest
    else if isDigit first then integerDigits 0 bytes
    else .malformed

/-- The fault of a value that stands where none of its kind may: it is read far enough to know that
it is one. -/
def misplaced (bytes : Bytes) : DocumentFault :=
  let word (rest : Bytes) (letters : List Char) : DocumentFault :=
    match expectWord letters rest with
    | .ok _ => .unsuitable
    | .error fault => fault
  match bytes with
  | [] => .ended
  | byte :: rest =>
    if byte = byteOf 'n' then word rest ['u', 'l', 'l']
    else if byte = byteOf 't' then word rest ['r', 'u', 'e']
    else if byte = byteOf 'f' then word rest ['a', 'l', 's', 'e']
    else if byte = byteOf '-' then numberFault rest
    else if isDigit byte then numberFault bytes
    else if byte = byteOf '"' then
      match stringFrom [] rest with
      | .ok _ => .unsuitable
      | .error fault => fault
    else if byte = byteOf '[' || byte = 0x7B then .unsuitable
    else .malformed

def readValue (bytes : Bytes) : Except DocumentFault (Option String × Bytes) :=
  match skipSpace bytes with
  | [] => .error .ended
  | byte :: rest =>
    if byte = byteOf 'n' then do
      let rest ← expectWord ['u', 'l', 'l'] rest
      return (none, rest)
    else if byte = byteOf '"' then do
      let (text, rest) ← readString rest
      return (some text, rest)
    else .error (misplaced (byte :: rest))

def keyOf : Setting → String
  | .checkerJar => "checker_jar"
  | .classpath => "classpath"
  | .processors => "processors"

def set (config : Config) (setting : Setting) (value : Option String) : Config :=
  match setting with
  | .checkerJar => { config with checkerJar := value }
  | .classpath => { config with classpath := value }
  | .processors => { config with processors := value }

def readMember (bytes : Bytes) : Except DocumentFault (Option String × Bytes) :=
  match skipSpace bytes with
  | [] => .error .ended
  | byte :: rest => if byte = byteOf ':' then readValue rest else .error .malformed

/-- Finds the next key of an object: what follows its opening quote, or nothing when the object
ends, with what follows the object. -/
def nextKey (first : Bool) (bytes : Bytes) : Except DocumentFault (Bytes ⊕ Bytes) :=
  match skipSpace bytes with
  | [] => .error .ended
  | byte :: rest =>
    if byte = 0x7D then .ok (.inr rest)
    else if first then
      if byte = byteOf '"' then .ok (.inl rest) else .error .malformed
    else if byte = byteOf ',' then
      match skipSpace rest with
      | [] => .error .ended
      | byte :: rest => if byte = byteOf '"' then .ok (.inl rest) else .error .malformed
    else .error .malformed

/-- Reads the members of an object. A key must be one of those in `left`, which have not been given
yet. -/
def readMembers (left : List Setting) (config : Config) (first : Bool) (bytes : Bytes) :
    Except DocumentFault (Config × Bytes) := do
  match ← nextKey first bytes with
  | .inr rest => return (config, rest)
  | .inl quoted =>
    let (key, rest) ← readString quoted
    match found : left.find? (keyOf · = key) with
    | none => throw .unsuitable
    | some setting =>
      have : (left.erase setting).length < left.length := by
        have member := List.mem_of_find?_eq_some found
        rw [List.length_erase_of_mem member]
        exact Nat.sub_lt (List.length_pos_of_mem member) Nat.one_pos
      let (value, rest) ← readMember rest
      readMembers (left.erase setting) (config.set setting value) false rest
termination_by left.length

/-- Finds the next value of an array; an array that ends here is too short. -/
def nextValue (first : Bool) (bytes : Bytes) : Except DocumentFault Bytes :=
  match skipSpace bytes with
  | [] => .error .ended
  | byte :: rest =>
    if byte = byteOf ']' then .error .unsuitable
    else if first then .ok (byte :: rest)
    else if byte = byteOf ',' then
      match skipSpace rest with
      | [] => .error .ended
      | byte :: rest => if byte = byteOf ']' then .error .malformed else .ok (byte :: rest)
    else .error .malformed

def readElements (first : Bool) (config : Config) :
    List Setting → Bytes → Except DocumentFault (Config × Bytes)
  | [], bytes => .ok (config, bytes)
  | setting :: settings, bytes => do
    let (value, rest) ← readValue (← nextValue first bytes)
    readElements false (config.set setting value) settings rest

def endArray (bytes : Bytes) : Except DocumentFault Bytes :=
  match skipSpace bytes with
  | [] => .error .ended
  | byte :: rest => if byte = byteOf ']' then .ok rest else .error .malformed

def allSettings : List Setting := [.checkerJar, .classpath, .processors]

def readBody (bytes : Bytes) : Except DocumentFault (Config × Bytes) :=
  match skipSpace bytes with
  | [] => .error .ended
  | byte :: rest =>
    if byte = 0x7B then readMembers allSettings {} true rest
    else if byte = byteOf '[' then do
      let (config, rest) ← readElements true {} allSettings rest
      return (config, ← endArray rest)
    else .error (misplaced (byte :: rest))

/-- Reads a whole document. Nothing but space may follow the configuration. -/
def parse (bytes : Bytes) : Except DocumentFault Config := do
  let (config, rest) ← readBody bytes
  if (skipSpace rest).isEmpty then return config else throw .malformed

end Config

end JarCensus
