/-! Numerals as they appear in messages, and digits. -/
namespace JarCensus.Text

def padLeft (width : Nat) (fill : Char) (text : List Char) : List Char :=
  List.replicate (width - text.length) fill ++ text

/-- Upper-case hexadecimal, at least `width` digits. -/
def hex (width value : Nat) : String :=
  String.ofList (padLeft width '0' ((Nat.toDigits 16 value).map Char.toUpper))

def decimal (value : Nat) : String := String.ofList (Nat.toDigits 10 value)

def isDigit (c : Char) : Bool := '0' ≤ c && c ≤ '9'

def hexValue? (c : Char) : Option Nat :=
  if isDigit c then some (c.toNat - '0'.toNat)
  else if 'a' ≤ c && c ≤ 'f' then some (c.toNat - 'a'.toNat + 10)
  else if 'A' ≤ c && c ≤ 'F' then some (c.toNat - 'A'.toNat + 10)
  else none

end JarCensus.Text
