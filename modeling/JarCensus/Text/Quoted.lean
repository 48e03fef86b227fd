import JarCensus.Text.Numeral

/-! Texts in quotes, as JSON has them. Quotes, backslashes and control characters are escaped; all
other characters stand for themselves. -/
namespace JarCensus.Text

def quotedChar (c : Char) : List Char :=
  if c = '"' then ['\\', '"']
  else if c = '\\' then ['\\', '\\']
  else if c = '\x08' then ['\\', 'b']
  else if c = '\x0c' then ['\\', 'f']
  else if c = '\n' then ['\\', 'n']
  else if c = '\r' then ['\\', 'r']
  else if c = '\t' then ['\\', 't']
  else if c.toNat < 0x20 then ['\\', 'u'] ++ padLeft 4 '0' (Nat.toDigits 16 c.toNat)
  else [c]

def quoted (text : String) : String :=
  String.ofList ('"' :: text.toList.flatMap quotedChar ++ ['"'])

end JarCensus.Text
