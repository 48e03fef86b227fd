import JarCensus.ClassFile.Instructions
import JarCensus.Proofs.ClassFile.Reads
import JarCensus.Proofs.Results
import Mathlib.Algebra.Ring.Int.Defs
import Mathlib.Data.List.Forall2

/-! Instructions as the class format describes them, with all their bytes, and code arrays as
sequences of them. Decoding follows the boundaries of these instructions, so operands and padding
are never read as opcodes. -/
namespace JarCensus

/-- The opcode of a call. -/
def InvokeKind.opcode : InvokeKind → UInt8
  | .virtual => 0xb6
  | .special => 0xb7
  | .static => 0xb8
  | .interface => 0xb9

/-- How many bytes a call has after its method reference. -/
def InvokeKind.surplus : InvokeKind → Nat
  | .interface => 2
  | _ => 0

namespace ClassFile

/-- Neighbouring opcodes with operands of one size. -/
structure OpcodeRange where
  first : UInt8
  last : UInt8
  operands : Nat
  deriving DecidableEq, Repr

/-- The instruction set but for calls, switches and `wide`. -/
def plainOpcodes : List OpcodeRange := [
  ⟨0x00, 0x0f, 0⟩,  -- nop, constants
  ⟨0x10, 0x10, 1⟩,  -- bipush
  ⟨0x11, 0x11, 2⟩,  -- sipush
  ⟨0x12, 0x12, 1⟩,  -- ldc
  ⟨0x13, 0x14, 2⟩,  -- ldc_w, ldc2_w
  ⟨0x15, 0x19, 1⟩,  -- iload, lload, fload, dload, aload
  ⟨0x1a, 0x2d, 0⟩,  -- iload_0 to aload_3
  ⟨0x2e, 0x35, 0⟩,  -- array loads
  ⟨0x36, 0x3a, 1⟩,  -- istore, lstore, fstore, dstore, astore
  ⟨0x3b, 0x4e, 0⟩,  -- istore_0 to astore_3
  ⟨0x4f, 0x56, 0⟩,  -- array stores
  ⟨0x57, 0x5f, 0⟩,  -- pop to swap
  ⟨0x60, 0x83, 0⟩,  -- arithmetic
  ⟨0x84, 0x84, 2⟩,  -- iinc
  ⟨0x85, 0x93, 0⟩,  -- conversions
  ⟨0x94, 0x98, 0⟩,  -- comparisons
  ⟨0x99, 0xa6, 2⟩,  -- conditional branches
  ⟨0xa7, 0xa8, 2⟩,  -- goto, jsr
  ⟨0xa9, 0xa9, 1⟩,  -- ret
  ⟨0xac, 0xb1, 0⟩,  -- returns
  ⟨0xb2, 0xb5, 2⟩,  -- getstatic, putstatic, getfield, putfield
  ⟨0xba, 0xba, 4⟩,  -- invokedynamic
  ⟨0xbb, 0xbb, 2⟩,  -- new
  ⟨0xbc, 0xbc, 1⟩,  -- newarray
  ⟨0xbd, 0xbd, 2⟩,  -- anewarray
  ⟨0xbe, 0xbf, 0⟩,  -- arraylength, athrow
  ⟨0xc0, 0xc1, 2⟩,  -- checkcast, instanceof
  ⟨0xc2, 0xc3, 0⟩,  -- monitorenter, monitorexit
  ⟨0xc5, 0xc5, 3⟩,  -- multianewarray
  ⟨0xc6, 0xc7, 2⟩,  -- ifnull, ifnonnull
  ⟨0xc8, 0xc9, 4⟩,  -- goto_w, jsr_w
  ⟨0xca, 0xca, 0⟩,  -- breakpoint, reserved
  ⟨0xfe, 0xff, 0⟩]  -- impdep1 and impdep2, reserved

/-- How many operand bytes a plain instruction has. -/
def plainSize? (opcode : UInt8) : Option Nat :=
  (plainOpcodes.find? fun range => range.first ≤ opcode && opcode ≤ range.last).map (·.operands)

/-- An instruction with all that is written of it. -/
inductive InstructionLayout where
  /-- Any instruction whose operands have a fixed size, calls apart. -/
  | plain (opcode : UInt8) (operands : List UInt8)
  /-- A call. Calls of interfaces have two bytes after the method reference. -/
  | invoke (kind : InvokeKind) (reference : UInt16) (count : List UInt8)
  | tableSwitch (padding : List UInt8) (default : UInt32) (low high : Int32)
      (offsets : List UInt32)
  | lookupSwitch (padding : List UInt8) (default : UInt32) (pairs : List (UInt32 × UInt32))
  | wideIncrement (operands : List UInt8)
  | wide (opcode : UInt8) (operands : List UInt8)
  deriving DecidableEq, Repr

namespace InstructionLayout

def opcode : InstructionLayout → UInt8
  | .plain opcode _ => opcode
  | .invoke kind _ _ => kind.opcode
  | .tableSwitch _ _ _ _ _ => 0xaa
  | .lookupSwitch _ _ _ => 0xab
  | .wideIncrement _ | .wide _ _ => 0xc4

/-- What follows the opcode. -/
def operands : InstructionLayout → List UInt8
  | .plain _ operands => operands
  | .invoke _ reference count => bytes16 reference ++ count
  | .tableSwitch padding default low high offsets =>
    padding ++ (bytes32 default ++ (bytes32 low.toUInt32 ++ (bytes32 high.toUInt32 ++
      offsets.flatMap bytes32)))
  | .lookupSwitch padding default pairs =>
    padding ++ (bytes32 default ++ (bytes32 (UInt32.ofNat pairs.length) ++
      pairs.flatMap fun pair => bytes32 pair.1 ++ bytes32 pair.2))
  | .wideIncrement operands => 0x84 :: operands
  | .wide opcode operands => opcode :: operands

def encode (layout : InstructionLayout) : List UInt8 := layout.opcode :: layout.operands

/-- The operands of a switch whose opcode is at `pc` begin at the next multiple of four. -/
def Pads (pc : Nat) (padding : List UInt8) : Prop :=
  padding.length < 4 ∧ 4 ∣ pc + 1 + padding.length

/-- The sizes are those of an instruction that starts at `pc`. -/
def Valid (pc : Nat) : InstructionLayout → Prop
  | .plain opcode operands => plainSize? opcode = some operands.length
  | .invoke kind _ count => count.length = kind.surplus
  | .tableSwitch padding _ low high offsets =>
    Pads pc padding ∧ (offsets.length : Int) = high.toInt - low.toInt + 1
  | .lookupSwitch padding _ pairs => Pads pc padding ∧ pairs.length < 2 ^ 31
  | .wideIncrement operands => operands.length = 4
  | .wide opcode operands => opcode ≠ 0x84 ∧ operands.length = 2

/-- What an instruction is decoded as. Only the method reference of a call is looked up. -/
def Decodes (pool : ConstantPool) : InstructionLayout → Instruction → Prop
  | .invoke kind reference _, decoded =>
    ∃ owner name descriptor, pool.methodRef reference = .ok (owner, name, descriptor) ∧
      decoded = .invocation ⟨kind, dotted owner, name, descriptor⟩
  | layout, decoded => decoded = .other layout.opcode

/-- Each instruction is valid where those before it end. -/
def ValidFrom (pc : Nat) : List InstructionLayout → Prop
  | [] => True
  | layout :: layouts => layout.Valid pc ∧ ValidFrom (pc + layout.encode.length) layouts

end InstructionLayout

section Opcodes

theorem forall_opcode {holds : UInt8 → Prop} (each : ∀ n : Fin 256, holds (UInt8.ofNat n))
    (opcode : UInt8) : holds opcode := by
  have here := each ⟨opcode.toNat, opcode.toNat_lt⟩
  rwa [UInt8.ofNat_toNat] at here

/-- The operands that the decoder expects are those of the instruction set. -/
theorem ofOpcode_eq (opcode : UInt8) :
    Operands.ofOpcode opcode =
      match plainSize? opcode, InvokeKind.ofOpcode? opcode with
      | some size, _ => .fixed size
      | none, some kind => .fixed (2 + kind.surplus)
      | none, none =>
        if opcode = 0xaa then .tableSwitch
        else if opcode = 0xab then .lookupSwitch
        else if opcode = 0xc4 then .wide
        else .unassigned := by
  revert opcode
  apply forall_opcode
  decide +kernel

theorem ofOpcode?_of_plainSize? (opcode : UInt8) :
    ∀ size ∈ plainSize? opcode, InvokeKind.ofOpcode? opcode = none := by
  revert opcode
  apply forall_opcode
  decide +kernel

theorem ofOpcode?_opcode (kind : InvokeKind) : InvokeKind.ofOpcode? kind.opcode = some kind := by
  cases kind <;> rfl

theorem plainSize?_opcode (kind : InvokeKind) : plainSize? kind.opcode = none := by
  cases kind <;> decide

theorem opcode_of_ofOpcode? (opcode : UInt8) :
    ∀ kind ∈ InvokeKind.ofOpcode? opcode, kind.opcode = opcode := by
  revert opcode
  apply forall_opcode
  decide +kernel

end Opcodes

section SwitchOperands

variable {pc : Nat} {padding rest tail : List UInt8} {default : UInt32}

theorem toInt_toInt32 (word : UInt32) :
    word.toInt32.toInt =
      if word.toNat < 2 ^ 31 then (word.toNat : Int) else word.toNat - 2 ^ 32 := by
  have signed : word.toInt32.toInt = word.toBitVec.toInt := rfl
  have unsigned : word.toBitVec.toNat = word.toNat := rfl
  rw [signed, BitVec.toInt_eq_toNat_cond, unsigned]
  split <;> split <;> omega

@[simp] theorem length_bytes32 (word : UInt32) : (bytes32 word).length = 4 := rfl

theorem operandWord_eq_ok (front : List UInt8) (word : UInt32) (tail : List UInt8) {skip : Nat}
    (split : rest = front ++ (bytes32 word ++ tail)) (length : front.length = skip) :
    operandWord pc rest skip = .ok word.toInt32.toInt := by
  obtain ⟨a, b, c, d, bytes⟩ : ∃ a b c d, bytes32 word = [a, b, c, d] := ⟨_, _, _, _, rfl⟩
  obtain rfl := (bytes32_eq_iff word a b c d).mp bytes
  subst split length
  rw [operandWord, List.drop_left, bytes]
  rfl

theorem operandLength_tableSwitch {low high : UInt32} (pads : padding.length = switchPadding pc)
    (split : rest = padding ++ (bytes32 default ++ (bytes32 low ++ (bytes32 high ++ tail)))) :
    operandLength pc 0xaa rest =
      if high.toInt32.toInt - low.toInt32.toInt + 1 < 0 then .error (.unknownOpcode 0xaa pc)
      else
        .ok (switchPadding pc + 12 + 4 * (high.toInt32.toInt - low.toInt32.toInt + 1).toNat) := by
  have lowRead : operandWord pc rest (switchPadding pc + 4) = .ok low.toInt32.toInt :=
    operandWord_eq_ok (padding ++ bytes32 default) low (bytes32 high ++ tail) (by simp [split])
      (by simp [pads])
  have highRead : operandWord pc rest (switchPadding pc + 8) = .ok high.toInt32.toInt :=
    operandWord_eq_ok (padding ++ bytes32 default ++ bytes32 low) high tail (by simp [split])
      (by simp [pads])
  have kind : Operands.ofOpcode 0xaa = .tableSwitch := by decide
  simp only [operandLength, kind, lowRead, highRead, bind, Except.bind]
  rfl

theorem operandLength_lookupSwitch {count : UInt32} (pads : padding.length = switchPadding pc)
    (split : rest = padding ++ (bytes32 default ++ (bytes32 count ++ tail))) :
    operandLength pc 0xab rest =
      if count.toInt32.toInt < 0 then .error (.unknownOpcode 0xab pc)
      else .ok (switchPadding pc + 8 + 8 * count.toInt32.toInt.toNat) := by
  have countRead : operandWord pc rest (switchPadding pc + 4) = .ok count.toInt32.toInt :=
    operandWord_eq_ok (padding ++ bytes32 default) count tail (by simp [split])
      (by simp [pads])
  have kind : Operands.ofOpcode 0xab = .lookupSwitch := by decide
  simp only [operandLength, kind, countRead, bind, Except.bind]
  rfl

theorem pads_iff (pc : Nat) (padding : List UInt8) :
    InstructionLayout.Pads pc padding ↔ padding.length = switchPadding pc := by
  rw [InstructionLayout.Pads, switchPadding]
  omega

theorem exists_pair (bytes : List UInt8) (length : bytes.length = 8) :
    ∃ pair : UInt32 × UInt32, bytes = bytes32 pair.1 ++ bytes32 pair.2 := by
  obtain ⟨key, rest, rfl, four⟩ := exists_bytes32_append bytes 4 length
  obtain ⟨offset, rfl⟩ := exists_bytes32 rest four
  exact ⟨(key, offset), rfl⟩

end SwitchOperands

namespace InstructionLayout

/-- The decoder passes over the operands of a valid instruction, whatever follows them. -/
theorem operandLength_operands {pc : Nat} {layout : InstructionLayout} (valid : layout.Valid pc)
    (tail : List UInt8) :
    operandLength pc layout.opcode (layout.operands ++ tail) = .ok layout.operands.length := by
  cases layout with
  | plain opcode operands =>
    have size : plainSize? opcode = some operands.length := valid
    simp only [operandLength, InstructionLayout.opcode, ofOpcode_eq, size]
    rfl
  | invoke kind reference count =>
    have size : count.length = kind.surplus := valid
    simp only [operandLength, InstructionLayout.opcode, ofOpcode_eq, plainSize?_opcode,
      ofOpcode?_opcode, InstructionLayout.operands, List.length_append, size]
    rfl
  | tableSwitch padding default low high offsets =>
    obtain ⟨pads, count⟩ := valid
    rw [pads_iff] at pads
    have words : (offsets.flatMap bytes32).length = offsets.length * 4 :=
      length_flatMap_of_length length_bytes32 offsets
    rw [InstructionLayout.opcode, operandLength_tableSwitch pads (by simp [operands]; rfl)]
    rw [Int32.toInt32_toUInt32, Int32.toInt32_toUInt32, ← count, if_neg (by omega)]
    simp [operands, words, pads, bytes32]
    omega
  | lookupSwitch padding default pairs =>
    obtain ⟨pads, few⟩ := valid
    rw [pads_iff] at pads
    have words : (pairs.flatMap fun pair => bytes32 pair.1 ++ bytes32 pair.2).length =
        pairs.length * 8 := length_flatMap_of_length (by simp) pairs
    have count : (UInt32.ofNat pairs.length).toInt32.toInt = pairs.length := by
      have small : (UInt32.ofNat pairs.length).toNat = pairs.length := by
        rw [UInt32.toNat_ofNat', Nat.mod_eq_of_lt (by omega)]
      rw [toInt_toInt32, small, if_pos few]
    rw [InstructionLayout.opcode, operandLength_lookupSwitch pads (by simp [operands]; rfl)]
    rw [count, if_neg (by omega)]
    simp [operands, words, pads]
    omega
  | wideIncrement operands =>
    have size : operands.length = 4 := valid
    have kind : Operands.ofOpcode 0xc4 = .wide := by decide
    simp [operandLength, InstructionLayout.opcode, kind, InstructionLayout.operands, size]
  | wide opcode operands =>
    obtain ⟨other, size⟩ := valid
    have kind : Operands.ofOpcode 0xc4 = .wide := by decide
    simp [operandLength, InstructionLayout.opcode, kind, InstructionLayout.operands, size, other]

theorem instruction_of_ofOpcode?_none {opcode : UInt8} (other : InvokeKind.ofOpcode? opcode = none)
    (pool : ConstantPool) (operands : List UInt8) :
    instruction pool opcode operands = .ok (.other opcode) := by
  simp [instruction, other]

theorem instruction_opcode (kind : InvokeKind) (pool : ConstantPool) (reference : UInt16)
    (count : List UInt8) (decoded : Instruction) :
    instruction pool kind.opcode (bytes16 reference ++ count) = .ok decoded ↔
      (invoke kind reference count).Decodes pool decoded := by
  obtain ⟨a, b, bytes⟩ : ∃ a b, bytes16 reference = [a, b] := ⟨_, _, rfl⟩
  obtain rfl := (bytes16_eq_iff reference a b).mp bytes
  simp only [instruction, ofOpcode?_opcode, bytes, List.cons_append, bind_eq_ok_iff, pure,
    Except.pure, Except.ok.injEq, Decodes]
  constructor
  · rintro ⟨⟨owner, name, descriptor⟩, found, rfl⟩
    exact ⟨owner, name, descriptor, found, rfl⟩
  · rintro ⟨owner, name, descriptor, found, rfl⟩
    exact ⟨(owner, name, descriptor), found, rfl⟩

theorem instruction_eq_ok_iff {pc : Nat} {layout : InstructionLayout} (valid : layout.Valid pc)
    (pool : ConstantPool) (decoded : Instruction) :
    instruction pool layout.opcode layout.operands = .ok decoded ↔ layout.Decodes pool decoded := by
  have plainly (other : InvokeKind.ofOpcode? layout.opcode = none) :
      instruction pool layout.opcode layout.operands = .ok decoded ↔
        decoded = .other layout.opcode := by
    rw [instruction_of_ofOpcode?_none other, Except.ok.injEq, eq_comm]
  cases layout with
  | plain opcode operands => exact plainly (ofOpcode?_of_plainSize? opcode _ valid)
  | invoke kind reference count => exact instruction_opcode kind pool reference count decoded
  | tableSwitch | lookupSwitch | wideIncrement | wide => exact plainly rfl

section Existence

variable {pc n : Nat} {rest : List UInt8}

/-- The bytes of a switch are its padding, its default and others. -/
theorem exists_switch (pc n : Nat) (bytes : List UInt8)
    (length : bytes.length = switchPadding pc + (4 + n)) :
    ∃ padding default words, padding.length = switchPadding pc ∧ words.length = n ∧
      bytes = padding ++ (bytes32 default ++ words) := by
  obtain ⟨default, words, split, size⟩ :=
    exists_bytes32_append (bytes.drop (switchPadding pc)) n (by rw [List.length_drop]; omega)
  refine ⟨bytes.take (switchPadding pc), default, words, ?_, size, ?_⟩
  · rw [List.length_take]
    omega
  · rw [← split, List.take_append_drop]

theorem exists_tableSwitch (length : operandLength pc 0xaa rest = .ok n) (fits : n ≤ rest.length) :
    ∃ layout : InstructionLayout, layout.Valid pc ∧ layout.opcode = 0xaa ∧
      layout.operands = rest.take n := by
  -- the words before the offsets are there, since they were read
  have enough : switchPadding pc + 12 ≤ n := by
    have kind : Operands.ofOpcode 0xaa = .tableSwitch := by decide
    simp only [operandLength, kind, bind_eq_ok_iff] at length
    obtain ⟨low, -, high, -, ended⟩ := length
    split at ended
    · cases ended
    · obtain rfl := Except.ok.inj ended
      omega
  obtain ⟨padding, default, words, pads, size, split⟩ :=
    exists_switch pc (n - (switchPadding pc + 4)) (rest.take n) (by rw [List.length_take]; omega)
  obtain ⟨low, words, rfl, size⟩ :=
    exists_bytes32_append words (n - (switchPadding pc + 8)) (by omega)
  obtain ⟨high, words, rfl, size⟩ :=
    exists_bytes32_append words (n - (switchPadding pc + 12)) (by omega)
  have whole : rest = padding ++ (bytes32 default ++ (bytes32 low ++ (bytes32 high ++
      (words ++ rest.drop n)))) := by
    simpa using (List.take_append_drop n rest).symm.trans (congrArg (· ++ rest.drop n) split)
  rw [operandLength_tableSwitch pads whole] at length
  by_cases fewer : high.toInt32.toInt - low.toInt32.toInt + 1 < 0
  · rw [if_pos fewer] at length
    cases length
  · rw [if_neg fewer] at length
    obtain rfl := Except.ok.inj length
    obtain ⟨offsets, count, rfl⟩ := exists_flatMap exists_bytes32
      (high.toInt32.toInt - low.toInt32.toInt + 1).toNat words (by omega)
    refine ⟨.tableSwitch padding default low.toInt32 high.toInt32 offsets,
      ⟨(pads_iff pc padding).mpr pads, by omega⟩, rfl, ?_⟩
    rw [split, operands, UInt32.toUInt32_toInt32, UInt32.toUInt32_toInt32]

theorem exists_lookupSwitch (length : operandLength pc 0xab rest = .ok n)
    (fits : n ≤ rest.length) :
    ∃ layout : InstructionLayout, layout.Valid pc ∧ layout.opcode = 0xab ∧
      layout.operands = rest.take n := by
  have enough : switchPadding pc + 8 ≤ n := by
    have kind : Operands.ofOpcode 0xab = .lookupSwitch := by decide
    simp only [operandLength, kind, bind_eq_ok_iff] at length
    obtain ⟨count, -, ended⟩ := length
    split at ended
    · cases ended
    · obtain rfl := Except.ok.inj ended
      omega
  obtain ⟨padding, default, words, pads, size, split⟩ :=
    exists_switch pc (n - (switchPadding pc + 4)) (rest.take n) (by rw [List.length_take]; omega)
  obtain ⟨count, words, rfl, size⟩ :=
    exists_bytes32_append words (n - (switchPadding pc + 8)) (by omega)
  have whole : rest = padding ++ (bytes32 default ++ (bytes32 count ++
      (words ++ rest.drop n))) := by
    simpa using (List.take_append_drop n rest).symm.trans (congrArg (· ++ rest.drop n) split)
  rw [operandLength_lookupSwitch pads whole] at length
  by_cases fewer : count.toInt32.toInt < 0
  · rw [if_pos fewer] at length
    cases length
  · rw [if_neg fewer] at length
    obtain rfl := Except.ok.inj length
    obtain ⟨pairs, pairsCount, rfl⟩ := exists_flatMap exists_pair
      count.toInt32.toInt.toNat words (by omega)
    have small : count.toNat < 2 ^ 31 ∧ pairs.length = count.toNat := by
      have bound := count.toNat_lt
      rw [toInt_toInt32] at fewer pairsCount
      split at fewer <;> omega
    have again : UInt32.ofNat pairs.length = count := by rw [small.2, UInt32.ofNat_toNat]
    refine ⟨.lookupSwitch padding default pairs,
      ⟨(pads_iff pc padding).mpr pads, by omega⟩, rfl, ?_⟩
    rw [split, operands, again]

theorem exists_wide (length : operandLength pc 0xc4 rest = .ok n) (fits : n ≤ rest.length) :
    ∃ layout : InstructionLayout, layout.Valid pc ∧ layout.opcode = 0xc4 ∧
      layout.operands = rest.take n := by
  have kind : Operands.ofOpcode 0xc4 = .wide := by decide
  simp only [operandLength, kind] at length
  cases rest with
  | nil => cases length
  | cons widened rest =>
    obtain rfl := Except.ok.inj length
    by_cases increment : widened = 0x84
    · subst increment
      refine ⟨.wideIncrement (rest.take 4), ?_, rfl, rfl⟩
      simp only [↓reduceIte, List.length_cons] at fits
      simp [Valid]
      omega
    · rw [if_neg increment] at fits ⊢
      refine ⟨.wide widened (rest.take 2), ⟨increment, ?_⟩, rfl, rfl⟩
      rw [List.length_cons] at fits
      simp
      omega

theorem exists_fixed {opcode : UInt8} {size : Nat} (form : Operands.ofOpcode opcode = .fixed size)
    (known : plainSize? opcode = some size ∨
      ∃ kind : InvokeKind, kind.opcode = opcode ∧ size = 2 + kind.surplus)
    (length : operandLength pc opcode rest = .ok n) (fits : n ≤ rest.length) :
    ∃ layout : InstructionLayout, layout.Valid pc ∧ layout.opcode = opcode ∧
      layout.operands = rest.take n := by
  simp only [operandLength, form] at length
  obtain rfl := Except.ok.inj length
  have taken : (rest.take size).length = size := by rw [List.length_take, Nat.min_eq_left fits]
  rcases known with plainly | ⟨kind, rfl, rfl⟩
  · exact ⟨.plain opcode (rest.take size), by rw [Valid, taken, plainly], rfl, rfl⟩
  · obtain ⟨reference, count, split, surplus⟩ := exists_bytes16_append _ kind.surplus taken
    exact ⟨.invoke kind reference count, surplus, rfl, split.symm⟩

/-- What the decoder passes over are the operands of a valid instruction. -/
theorem exists_layout {opcode : UInt8} (length : operandLength pc opcode rest = .ok n)
    (fits : n ≤ rest.length) :
    ∃ layout : InstructionLayout, layout.Valid pc ∧ layout.opcode = opcode ∧
      layout.operands = rest.take n := by
  have form := ofOpcode_eq opcode
  cases size : plainSize? opcode with
  | some size =>
    simp only [size] at form
    exact exists_fixed form (.inl ‹_›) length fits
  | none =>
    cases call : InvokeKind.ofOpcode? opcode with
    | some kind =>
      simp only [size, call] at form
      exact exists_fixed form (.inr ⟨kind, opcode_of_ofOpcode? opcode kind call, rfl⟩) length fits
    | none =>
      simp only [size, call] at form
      by_cases table : opcode = 0xaa
      · subst table
        exact exists_tableSwitch length fits
      by_cases lookup : opcode = 0xab
      · subst lookup
        exact exists_lookupSwitch length fits
      by_cases wide : opcode = 0xc4
      · subst wide
        exact exists_wide length fits
      rw [if_neg table, if_neg lookup, if_neg wide] at form
      simp only [operandLength, form] at length
      cases length

end Existence

end InstructionLayout

section Decoding

open InstructionLayout (ValidFrom Decodes)

theorem instructionsFrom_cons_eq_ok_iff (pool : ConstantPool) (done : List Instruction) (pc : Nat)
    (opcode : UInt8) (rest : List UInt8) (out : List Instruction) :
    instructionsFrom pool done pc 0 (opcode :: rest) = .ok out ↔
      ∃ layout : InstructionLayout, ∃ decoded, layout.Valid pc ∧ layout.opcode = opcode ∧
        layout.operands <+: rest ∧ layout.Decodes pool decoded ∧
        instructionsFrom pool (decoded :: done) (pc + 1) layout.operands.length rest = .ok out := by
  rw [instructionsFrom]
  constructor
  · intro ran
    split at ran
    next => cases ran
    next n length =>
      by_cases fits : (rest.take n).length = n
      · rw [if_pos fits] at ran
        split at ran
        next => cases ran
        next decoded read =>
          obtain ⟨layout, valid, rfl, operands⟩ :=
            InstructionLayout.exists_layout length (by rw [← fits, List.length_take]; omega)
          refine ⟨layout, decoded, valid, rfl, operands ▸ List.take_prefix n rest, ?_, ?_⟩
          · rw [← InstructionLayout.instruction_eq_ok_iff valid, operands, read]
          · rw [operands, fits, ran]
      · rw [if_neg fits] at ran
        cases ran
  · rintro ⟨layout, decoded, valid, rfl, ⟨tail, rfl⟩, decodes, ran⟩
    rw [← InstructionLayout.instruction_eq_ok_iff valid] at decodes
    simp only [InstructionLayout.operandLength_operands valid, List.take_left, ↓reduceIte, decodes,
      ran]

/-- From any place on, decoding adds the instructions that the code is laid out as. -/
theorem instructionsFrom_eq_ok_iff (pool : ConstantPool) (done : List Instruction)
    (pc skip : Nat) (code : List UInt8) (out : List Instruction) :
    instructionsFrom pool done pc skip code = .ok out ↔
      ∃ layouts decoded, code.drop skip = layouts.flatMap InstructionLayout.encode ∧
        ValidFrom (pc + skip) layouts ∧ List.Forall₂ (Decodes pool) layouts decoded ∧
        out = done.reverse ++ decoded := by
  induction code generalizing done pc skip with
  | nil =>
    rw [instructionsFrom, List.drop_nil, Except.ok.injEq]
    constructor
    · rintro rfl
      exact ⟨[], [], rfl, trivial, .nil, by simp⟩
    · rintro ⟨layouts, decoded, empty, -, decodes, rfl⟩
      cases decodes with
      | nil => simp
      | cons => simp [InstructionLayout.encode] at empty
  | cons opcode rest ih =>
    cases skip with
    | succ skip =>
      rw [instructionsFrom, ih, List.drop_succ_cons, Nat.add_right_comm, Nat.add_assoc]
    | zero =>
      simp only [instructionsFrom_cons_eq_ok_iff, ih]
      constructor
      · rintro ⟨layout, decoded, valid, rfl, ⟨tail, rfl⟩, decodes, later, out, split, valids,
          others, rfl⟩
        rw [List.drop_left] at split
        refine ⟨layout :: later, decoded :: out, ?_, ⟨valid, ?_⟩, .cons decodes others, by simp⟩
        · simp [InstructionLayout.encode, split]
        · rwa [InstructionLayout.encode, List.length_cons, Nat.add_zero, Nat.add_comm _ 1,
            ← Nat.add_assoc]
      · rintro ⟨layouts, decoded, split, valids, decodes, rfl⟩
        cases decodes with
        | nil => simp at split
        | @cons layout decoded layouts out decodes others =>
          obtain ⟨valid, valids⟩ := valids
          obtain ⟨rfl, rfl⟩ : opcode = layout.opcode ∧
              rest = layout.operands ++ layouts.flatMap InstructionLayout.encode := by
            simpa [InstructionLayout.encode] using split
          refine ⟨layout, decoded, valid, rfl, List.prefix_append _ _, decodes, layouts, out, ?_,
            ?_, others, by simp⟩
          · rw [List.drop_left]
          · rwa [InstructionLayout.encode, List.length_cons, Nat.add_zero, Nat.add_comm _ 1,
              ← Nat.add_assoc] at valids

theorem encode_unique {pc : Nat} {layout layout' : InstructionLayout} {tail tail' : List UInt8}
    (valid : layout.Valid pc) (valid' : layout'.Valid pc)
    (same : layout.encode ++ tail = layout'.encode ++ tail') :
    layout.encode = layout'.encode ∧ tail = tail' := by
  simp only [InstructionLayout.encode, List.cons_append, List.cons.injEq] at same
  obtain ⟨opcodes, operands⟩ := same
  have length := InstructionLayout.operandLength_operands valid tail
  rw [opcodes, operands, InstructionLayout.operandLength_operands valid' tail'] at length
  obtain ⟨operands, tails⟩ := List.append_inj operands (Except.ok.inj length).symm
  exact ⟨by rw [InstructionLayout.encode, InstructionLayout.encode, opcodes, operands], tails⟩

/-- The bytes after the opcodes leave no choice where instructions end. -/
theorem map_encode_unique {pc : Nat} {layouts layouts' : List InstructionLayout}
    (valid : ValidFrom pc layouts) (valid' : ValidFrom pc layouts')
    (same : layouts.flatMap InstructionLayout.encode =
      layouts'.flatMap InstructionLayout.encode) :
    layouts.map InstructionLayout.encode = layouts'.map InstructionLayout.encode := by
  induction layouts generalizing pc layouts' with
  | nil =>
    cases layouts' with
    | nil => rfl
    | cons => simp [InstructionLayout.encode] at same
  | cons layout layouts ih =>
    cases layouts' with
    | nil => simp [InstructionLayout.encode] at same
    | cons layout' layouts' =>
      obtain ⟨first, others⟩ := encode_unique valid.1 valid'.1 same
      have valids' := valid'.2
      rw [← first] at valids'
      rw [List.map_cons, List.map_cons, first, ih valid.2 valids' others]

/-- Code is decoded exactly if it is instructions one after the other, each valid where those before
it end and its call, if it is one, found in the pool; what comes out is one entry for each of them,
in order. It can be cut into instructions in one way only. -/
theorem decodeInstructions_follows_layout (pool : ConstantPool) (code : List UInt8)
    (out : List Instruction) :
    (decodeInstructions pool code = .ok out ↔
      ∃ layouts, code = layouts.flatMap InstructionLayout.encode ∧ ValidFrom 0 layouts ∧
        List.Forall₂ (Decodes pool) layouts out) ∧
    ∀ layouts layouts',
      code = layouts.flatMap InstructionLayout.encode → ValidFrom 0 layouts →
      code = layouts'.flatMap InstructionLayout.encode → ValidFrom 0 layouts' →
      layouts.map InstructionLayout.encode = layouts'.map InstructionLayout.encode := by
  constructor
  · rw [decodeInstructions, instructionsFrom_eq_ok_iff]
    constructor
    · rintro ⟨layouts, decoded, split, valid, decodes, rfl⟩
      exact ⟨layouts, split, valid, decodes⟩
    · rintro ⟨layouts, split, valid, decodes⟩
      exact ⟨layouts, out, split, valid, decodes, rfl⟩
  · rintro layouts layouts' rfl valid split' valid'
    exact map_encode_unique valid valid' split'

/-- A switch whose padding, default and only offset look like calls. -/
example : decodeInstructions ⟨#[none]⟩
    [0x00, 0xaa, 0xb6, 0xb6, 0xb6, 0xb6, 0xb6, 0xb6, 0, 0, 0, 7, 0, 0, 0, 7, 0xb6, 0xb6, 0xb6, 0xb6,
      0xb1] = .ok [.other 0x00, .other 0xaa, .other 0xb1] := rfl

end Decoding

end ClassFile

end JarCensus
