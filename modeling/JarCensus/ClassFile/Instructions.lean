import JarCensus.ClassFile.Basic
import JarCensus.ClassFile.ConstantPool

/-! Cutting a code array into instructions. Operand lengths follow from the opcode, except for the
two switches, whose operands are aligned to the start of the code, and for `wide`. -/
namespace JarCensus

namespace ClassFile

inductive Operands where
  | fixed (length : Nat)
  | tableSwitch
  | lookupSwitch
  | wide
  /-- No instruction has this opcode. -/
  | unassigned
  deriving DecidableEq, Repr

/-- Opcodes `0xca`, `0xfe` and `0xff` are reserved and stand alone. -/
def Operands.ofOpcode (opcode : UInt8) : Operands :=
  if opcode ≤ 0x0f then .fixed 0
  else if opcode = 0x10 then .fixed 1
  else if opcode = 0x11 then .fixed 2
  else if opcode = 0x12 then .fixed 1
  else if opcode ≤ 0x14 then .fixed 2
  else if opcode ≤ 0x19 then .fixed 1
  else if opcode ≤ 0x35 then .fixed 0
  else if opcode ≤ 0x3a then .fixed 1
  else if opcode ≤ 0x83 then .fixed 0
  else if opcode = 0x84 then .fixed 2
  else if opcode ≤ 0x98 then .fixed 0
  else if opcode ≤ 0xa8 then .fixed 2
  else if opcode = 0xa9 then .fixed 1
  else if opcode = 0xaa then .tableSwitch
  else if opcode = 0xab then .lookupSwitch
  else if opcode ≤ 0xb1 then .fixed 0
  else if opcode ≤ 0xb8 then .fixed 2
  else if opcode ≤ 0xba then .fixed 4
  else if opcode = 0xbb then .fixed 2
  else if opcode = 0xbc then .fixed 1
  else if opcode = 0xbd then .fixed 2
  else if opcode ≤ 0xbf then .fixed 0
  else if opcode ≤ 0xc1 then .fixed 2
  else if opcode ≤ 0xc3 then .fixed 0
  else if opcode = 0xc4 then .wide
  else if opcode = 0xc5 then .fixed 3
  else if opcode ≤ 0xc7 then .fixed 2
  else if opcode ≤ 0xc9 then .fixed 4
  else if opcode = 0xca || opcode = 0xfe || opcode = 0xff then .fixed 0
  else .unassigned

/-- Bytes between a switch opcode at `pc` and the next multiple of four. -/
def switchPadding (pc : Nat) : Nat := (4 - (pc + 1) % 4) % 4

/-- The signed word that begins `skip` bytes into the operands of the opcode at `pc`. -/
def operandWord (pc : Nat) (operands : List UInt8) (skip : Nat) : Except FormatError Int :=
  match operands.drop skip with
  | a :: b :: c :: d :: _ => .ok (word32 a b c d).toInt32.toInt
  | _ => .error (.truncated (pc + 1 + skip) (skip + 4 - operands.length))

def operandLength (pc : Nat) (opcode : UInt8) (rest : List UInt8) : Except FormatError Nat :=
  match Operands.ofOpcode opcode with
  | .fixed length => .ok length
  | .tableSwitch => do
    let low ← operandWord pc rest (switchPadding pc + 4)
    let high ← operandWord pc rest (switchPadding pc + 8)
    if high - low + 1 < 0 then throw (.unknownOpcode opcode pc)
    return switchPadding pc + 12 + 4 * (high - low + 1).toNat
  | .lookupSwitch => do
    let pairs ← operandWord pc rest (switchPadding pc + 4)
    if pairs < 0 then throw (.unknownOpcode opcode pc)
    return switchPadding pc + 8 + 8 * pairs.toNat
  | .wide =>
    match rest with
    | [] => .error (.truncated pc 1)
    | widened :: _ => .ok (if widened = 0x84 then 5 else 3)
  | .unassigned => .error (.unknownOpcode opcode pc)

end ClassFile

def InvokeKind.ofOpcode? (opcode : UInt8) : Option InvokeKind :=
  if opcode = 0xb6 then some .virtual
  else if opcode = 0xb7 then some .special
  else if opcode = 0xb8 then some .static
  else if opcode = 0xb9 then some .interface
  else none

namespace ClassFile

/-- The instruction of an opcode and its operands. The operands of a call begin with the index of
its method reference. -/
def instruction (pool : ConstantPool) (opcode : UInt8) (operands : List UInt8) :
    Except FormatError Instruction :=
  match InvokeKind.ofOpcode? opcode, operands with
  | some kind, a :: b :: _ => do
    let (owner, name, descriptor) ← pool.methodRef (word16 a b)
    return .invocation ⟨kind, dotted owner, name, descriptor⟩
  | _, _ => .ok (.other opcode)

/-- Decodes the code from offset `pc` on, onto `done` (latest instruction first), after passing
over `skip` operand bytes. -/
def instructionsFrom (pool : ConstantPool) (done : List Instruction) :
    (pc skip : Nat) → List UInt8 → Except FormatError (List Instruction)
  | _, _, [] => .ok done.reverse
  | pc, skip + 1, _ :: rest => instructionsFrom pool done (pc + 1) skip rest
  | pc, 0, opcode :: rest =>
    match operandLength pc opcode rest with
    | .error e => .error e
    | .ok length =>
      let operands := rest.take length
      if operands.length = length then
        match instruction pool opcode operands with
        | .error e => .error e
        | .ok decoded => instructionsFrom pool (decoded :: done) (pc + 1) length rest
      else .error (.truncated pc (length - operands.length))

def decodeInstructions (pool : ConstantPool) (code : List UInt8) :
    Except FormatError (List Instruction) :=
  instructionsFrom pool [] 0 0 code

end ClassFile

end JarCensus
