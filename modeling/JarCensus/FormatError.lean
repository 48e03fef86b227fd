import JarCensus.Text.Numeral

/-! Why class data or a method descriptor cannot be read. -/
namespace JarCensus

inductive ConstantKind where
  | utf8
  | classInfo
  | methodRef
  | nameAndType
  deriving DecidableEq, Repr

def ConstantKind.name : ConstantKind → String
  | .utf8 => "Utf8"
  | .classInfo => "Class"
  | .methodRef => "Methodref"
  | .nameAndType => "NameAndType"

inductive FormatError where
  | badMagic (word : UInt32)
  /-- A read at `offset` found `needed` bytes too few. -/
  | truncated (offset needed : Nat)
  | unknownTag (tag : UInt8) (index : UInt16)
  /-- The index is zero, past the pool, or the second slot of a wide constant. -/
  | badIndex (index : UInt16)
  | wrongKind (index : UInt16) (expected : ConstantKind)
  | badText
  | unknownOpcode (opcode : UInt8) (pc : Nat)
  | badDescriptor (descriptor : String)
  deriving DecidableEq, Repr

open Text in
def FormatError.message : FormatError → String
  | .badMagic word => "bad magic 0x" ++ hex 8 word.toNat ++ ", not a class file"
  | .truncated offset needed =>
    "unexpected end of class data at offset " ++ decimal offset ++ " (needed " ++ decimal needed ++
      " more bytes)"
  | .unknownTag tag index =>
    "unknown constant pool tag " ++ decimal tag.toNat ++ " at index " ++ decimal index.toNat
  | .badIndex index =>
    "constant pool index " ++ decimal index.toNat ++ " is out of range or unusable"
  | .wrongKind index expected =>
    "constant pool index " ++ decimal index.toNat ++ " is not a " ++ expected.name ++ " entry"
  | .badText => "invalid modified UTF-8 in constant pool"
  | .unknownOpcode opcode pc =>
    "unknown opcode 0x" ++ hex 2 opcode.toNat ++ " at bytecode offset " ++ decimal pc
  | .badDescriptor descriptor => "invalid method descriptor: " ++ descriptor

end JarCensus
