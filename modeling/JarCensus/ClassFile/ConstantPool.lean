import JarCensus.ClassFile.ModifiedUtf8
import JarCensus.ClassFile.Reader

/-! The constant pool. Slot zero is unusable, and a long or double takes two slots of which the
second is unusable, so a constant's index is one more than the slots of those before it. -/
namespace JarCensus.ClassFile

inductive Tag where
  | utf8
  | integer
  | float
  | long
  | double
  | classInfo
  | string
  | fieldRef
  | methodRef
  | interfaceMethodRef
  | nameAndType
  | methodHandle
  | methodType
  | dynamic
  | invokeDynamic
  | moduleInfo
  | packageInfo
  deriving DecidableEq, Repr

def Tag.byte : Tag → UInt8
  | .utf8 => 1
  | .integer => 3
  | .float => 4
  | .long => 5
  | .double => 6
  | .classInfo => 7
  | .string => 8
  | .fieldRef => 9
  | .methodRef => 10
  | .interfaceMethodRef => 11
  | .nameAndType => 12
  | .methodHandle => 15
  | .methodType => 16
  | .dynamic => 17
  | .invokeDynamic => 18
  | .moduleInfo => 19
  | .packageInfo => 20

def Tag.all : List Tag :=
  [.utf8, .integer, .float, .long, .double, .classInfo, .string, .fieldRef, .methodRef,
    .interfaceMethodRef, .nameAndType, .methodHandle, .methodType, .dynamic, .invokeDynamic,
    .moduleInfo, .packageInfo]

def Tag.ofByte? (byte : UInt8) : Option Tag := Tag.all.find? (·.byte = byte)

/-- Longs and doubles take two slots. -/
def Tag.isWide : Tag → Bool
  | .long | .double => true
  | _ => false

/-- A constant, as far as names and calls need it. -/
inductive Constant where
  | utf8 (text : String)
  | classInfo (name : UInt16)
  | nameAndType (name descriptor : UInt16)
  | methodRef (owner nameAndType : UInt16)
  | other
  deriving DecidableEq, Repr

def readConstant : Tag → Reader Constant
  | .utf8 => do
    let length ← Reader.u2
    let bytes ← Reader.bytes length.toNat
    let text ← Reader.check (ModifiedUtf8.decode bytes)
    return .utf8 text
  | .classInfo => do
    let name ← Reader.u2
    return .classInfo name
  | .methodRef | .interfaceMethodRef => do
    let owner ← Reader.u2
    let nameAndType ← Reader.u2
    return .methodRef owner nameAndType
  | .nameAndType => do
    let name ← Reader.u2
    let descriptor ← Reader.u2
    return .nameAndType name descriptor
  | .integer | .float | .fieldRef | .dynamic | .invokeDynamic => do
    Reader.skip 4
    return .other
  | .long | .double => do
    Reader.skip 8
    return .other
  | .string | .methodType | .moduleInfo | .packageInfo => do
    Reader.skip 2
    return .other
  | .methodHandle => do
    Reader.skip 3
    return .other

/-- The slots of a pool by index; `none` is an unusable slot. -/
structure ConstantPool where
  slots : Array (Option Constant)
  deriving DecidableEq, Repr

namespace ConstantPool

/-- Fills `remaining` more slots, the first of them at `index`. A wide constant whose second slot
would fall outside is refused before its bytes are read. -/
def readSlots : (remaining : Nat) → (index : UInt16) → Array (Option Constant) →
    Reader (Array (Option Constant))
  | 0, _, slots => pure slots
  | remaining + 1, index, slots => do
    let byte ← Reader.u1
    match Tag.ofByte? byte with
    | none => throw (.unknownTag byte index)
    | some tag =>
      if tag.isWide then
        match remaining with
        | 0 => throw (.badIndex index)
        | remaining + 1 => do
          let constant ← readConstant tag
          readSlots remaining (index + 2) ((slots.push (some constant)).push none)
      else do
        let constant ← readConstant tag
        readSlots remaining (index + 1) (slots.push (some constant))

/-- Reads the slot count and the slots. The count includes slot zero; a count of zero is taken as
one. -/
def read : Reader ConstantPool := do
  let count ← Reader.u2
  let slots ← readSlots (count.toNat - 1) 1 #[none]
  return ⟨slots⟩

def get (pool : ConstantPool) (index : UInt16) : Except FormatError Constant :=
  match pool.slots[index.toNat]? with
  | some (some constant) => .ok constant
  | _ => .error (.badIndex index)

def text (pool : ConstantPool) (index : UInt16) : Except FormatError String := do
  match ← pool.get index with
  | .utf8 text => return text
  | _ => throw (.wrongKind index .utf8)

def className (pool : ConstantPool) (index : UInt16) : Except FormatError String := do
  match ← pool.get index with
  | .classInfo name => pool.text name
  | _ => throw (.wrongKind index .classInfo)

def methodRef (pool : ConstantPool) (index : UInt16) :
    Except FormatError (String × String × String) := do
  match ← pool.get index with
  | .methodRef owner nameAndType =>
    match ← pool.get nameAndType with
    | .nameAndType name descriptor =>
      return (← pool.className owner, ← pool.text name, ← pool.text descriptor)
    | _ => throw (.wrongKind nameAndType .nameAndType)
  | _ => throw (.wrongKind index .methodRef)

end ConstantPool

end JarCensus.ClassFile
