import JarCensus.Text.Utf8

/-! Code page 437, in which entry names are written that are not marked as UTF-8. -/
namespace JarCensus.Zip.CodePage437

def upperHalf : Array Char :=
  (String.intercalate "" [
    "ÇüéâäàåçêëèïîìÄÅ",
    "ÉæÆôöòûùÿÖÜ¢£¥₧ƒ",
    "áíóúñÑªº¿⌐¬½¼¡«»",
    "░▒▓│┤╡╢╖╕╣║╗╝╜╛┐",
    "└┴┬├─┼╞╟╚╔╩╦╠═╬╧",
    "╨╤╥╙╘╒╓╫╪┘┌█▄▌▐▀",
    "αßΓπΣσµτΦΘΩδ∞φε∩",
    "≡±≥≤⌠⌡÷≈°∙·√ⁿ²■ "]).toList.toArray

def character (byte : UInt8) : Char :=
  if byte < 0x80 then Char.ofNat byte.toNat
  else upperHalf.getD (byte.toNat - 0x80) Text.Utf8.replacement

def decode (bytes : List UInt8) : List Char := bytes.map character

end JarCensus.Zip.CodePage437
