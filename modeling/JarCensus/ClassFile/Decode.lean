import JarCensus.ClassFile.Instructions

/-! Decoding a class file. Names are looked up in the pool as soon as their indices are read, so
the first fault in reading order is the one reported. Bytes after the last method are not read. -/
namespace JarCensus.ClassFile

def magic : UInt32 := 0xCAFEBABE

/-- Passes over one attribute: name index, length, body. -/
def skipAttribute : Reader Unit := do
  Reader.skip 2
  let length ← Reader.u4
  Reader.skip length.toNat

def skipAttributes : Reader Unit := do
  let _ ← Reader.table skipAttribute

def skipField : Reader Unit := do
  Reader.skip 6
  skipAttributes

/-- The code array of a `Code` body, after which the exception table and the nested attributes
must still fit. -/
def codeArray : Reader (List UInt8) := do
  Reader.skip 4
  let length ← Reader.u4
  let code ← Reader.bytes length.toNat
  let exceptions ← Reader.u2
  Reader.skip (exceptions.toNat * 8)
  skipAttributes
  return code

def decodeBody (pool : ConstantPool) (body : List UInt8) :
    Except FormatError (List Instruction) := do
  let code ← codeArray.runOn body
  decodeInstructions pool code

/-- Reads one attribute of a method: the instructions of a `Code` attribute, nothing of another. -/
def readMethodAttribute (pool : ConstantPool) : Reader (Option (List Instruction)) := do
  let index ← Reader.u2
  let name ← Reader.check (pool.text index)
  let length ← Reader.u4
  let body ← Reader.bytes length.toNat
  if name = "Code" then
    let instructions ← Reader.check (decodeBody pool body)
    return some instructions
  else
    return none

/-- Reads one method. Of several `Code` attributes the last one counts; a method without any has
no instructions. -/
def readMethod (pool : ConstantPool) (owner : String) : Reader Method := do
  let access ← Reader.u2
  let nameIndex ← Reader.u2
  let name ← Reader.check (pool.text nameIndex)
  let descriptorIndex ← Reader.u2
  let descriptor ← Reader.check (pool.text descriptorIndex)
  let bodies ← Reader.table (readMethodAttribute pool)
  let instructions := ((bodies.filterMap id).getLast?).getD []
  return { owner, access, name, descriptor, instructions }

def readClassName (pool : ConstantPool) : Reader String := do
  let index ← Reader.u2
  let name ← Reader.check (pool.className index)
  return dotted name

/-- Reads the superclass; index zero stands for none. -/
def readSuperName (pool : ConstantPool) : Reader (Option String) := do
  let index ← Reader.u2
  if index = 0 then return none
  let name ← Reader.check (pool.className index)
  return some (dotted name)

def readClass : Reader ClassFile := do
  let word ← Reader.u4
  if word ≠ magic then throw (.badMagic word)
  let minor ← Reader.u2
  let major ← Reader.u2
  let pool ← ConstantPool.read
  let access ← Reader.u2
  let name ← readClassName pool
  let superName ← readSuperName pool
  let interfaces ← Reader.table (readClassName pool)
  let _ ← Reader.table skipField
  let methods ← Reader.table (readMethod pool name)
  return { minor, major, access, name, superName, interfaces, methods }

def decode (data : List UInt8) : Except FormatError ClassFile := readClass.runOn data

end JarCensus.ClassFile
