import JarCensus.Proofs.ClassFile.Checked.ConstantPool
import JarCensus.Proofs.ClassFile.InstructionLayout

/-! Code arrays by index. An offset of the code is below `2 ^ 63` and an instruction takes at most
`2 ^ 35` bytes, whatever its operands say, so that no length and no end of an instruction leaves its
word; operands are looked at once the instruction is known to end inside of the code. -/
namespace JarCensus.ClassFile

section Running

variable {pc n : Nat} {opcode : UInt8} {rest : List UInt8}

theorem plainSize?_le (opcode : UInt8) : ∀ size ∈ plainSize? opcode, size ≤ 4 := by
  revert opcode
  apply forall_opcode
  decide +kernel

theorem ofOpcode_of_call {kind : InvokeKind} (call : InvokeKind.ofOpcode? opcode = some kind) :
    Operands.ofOpcode opcode = .fixed (2 + kind.surplus) := by
  obtain rfl : kind.opcode = opcode := opcode_of_ofOpcode? opcode kind call
  cases kind <;> rfl

theorem le_of_ofOpcode_fixed (form : Operands.ofOpcode opcode = .fixed n) : n ≤ 4 := by
  have small := plainSize?_le opcode
  rw [ofOpcode_eq] at form
  cases plain : plainSize? opcode with
  | some size =>
    simp only [plain, Option.mem_some_iff, forall_eq', Operands.fixed.injEq] at small form
    omega
  | none =>
    cases call : InvokeKind.ofOpcode? opcode with
    | some kind =>
      simp only [plain, call, Operands.fixed.injEq] at form
      cases kind <;> simp only [InvokeKind.surplus] at form <;> omega
    | none =>
      simp only [plain, call] at form
      split_ifs at form

theorem operandWord_of_lt {skip : Nat} (few : rest.length < skip + 4) :
    operandWord pc rest skip =
      .error (.truncated (pc + 1 + skip) (skip + 4 - rest.length)) := by
  have length : (rest.drop skip).length < 4 := by
    rw [List.length_drop]
    omega
  rw [operandWord]
  generalize rest.drop skip = left at length ⊢
  rcases left with _ | ⟨a, _ | ⟨b, _ | ⟨c, _ | ⟨d, tail⟩⟩⟩⟩
  · rfl
  · rfl
  · rfl
  · rfl
  · exact absurd length (Nat.not_lt.mpr (Nat.le_add_left 4 tail.length))

theorem switchPadding_lt (pc : Nat) : switchPadding pc < 4 := Nat.mod_lt _ (by decide)

/-- Passing over bytes that are there leads to those that follow them. -/
theorem instructionsFrom_skip (pool : ConstantPool) (done : List Instruction) (pc skip : Nat)
    (rest : List UInt8) (there : skip ≤ rest.length) :
    instructionsFrom pool done pc skip rest =
      instructionsFrom pool done (pc + skip) 0 (rest.drop skip) := by
  induction skip generalizing pc rest with
  | zero => rfl
  | succ skip ih =>
    cases rest with
    | nil => cases there
    | cons byte rest =>
      rw [instructionsFrom, ih (pc + 1) rest (Nat.le_of_succ_le_succ there), List.drop_succ_cons,
        Nat.add_right_comm, Nat.add_assoc]

/-- One instruction, then those after it. -/
theorem instructionsFrom_cons (pool : ConstantPool) (done : List Instruction) (pc : Nat)
    (opcode : UInt8) (rest : List UInt8) :
    instructionsFrom pool done pc 0 (opcode :: rest) = (do
      let length ← operandLength pc opcode rest
      if length ≤ rest.length then
        let decoded ← instruction pool opcode (rest.take length)
        instructionsFrom pool (decoded :: done) (pc + 1 + length) 0 (rest.drop length)
      else .error (.truncated pc (length - rest.length))) := by
  rw [instructionsFrom]
  cases operandLength pc opcode rest with
  | error e => rfl
  | ok length =>
    by_cases there : length ≤ rest.length
    · have full : (rest.take length).length = length := by
        rw [List.length_take]
        omega
      simp only [bind, Except.bind, if_pos full, if_pos there]
      cases instruction pool opcode (rest.take length) with
      | error e => rfl
      | ok decoded => exact instructionsFrom_skip pool _ (pc + 1) length rest there
    · have cut : rest.take length = rest := List.take_of_length_le (by omega)
      have missing : ¬rest.length = length := by omega
      simp only [bind, Except.bind, cut, if_neg missing, if_neg there]

end Running

namespace Checked

/-- Bytes between a switch opcode at `pc` and the next multiple of four. -/
def switchPadding (pc : BitVec 64) : Except Stop (BitVec 64) := do
  let next ← add pc 1
  let gap ← sub 4 (next % 4)
  return gap % 4

/-- Where the operands of the switch at `pc` begin. -/
def switchBase (pc : BitVec 64) : Except Stop (BitVec 64) := do
  let next ← add pc 1
  let padding ← switchPadding pc
  add next padding

/-- The word at an offset. Where it is cut short, the missing bytes are counted from zero up. -/
def intAt (code : List UInt8) (offset : BitVec 64) : Except Stop (BitVec 32) := do
  let stop ← add offset 4
  match (slice code offset stop).toOption with
  | some part => return (← wordAt part).toBitVec
  | none => .error (.refused (.truncated offset.toNat (stop.toNat - (size code).toNat)))

/-- The length of a switch with a table of `count` entries after its fixed operands. -/
def switchLength (pc base fixed count width : BitVec 64) : Except Stop (BitVec 64) := do
  let before ← sub base pc
  let head ← add before fixed
  let table ← mul count width
  add head table

/-- How many cases a table has between two bounds. -/
def caseCount (low high : BitVec 32) : Except Stop (BitVec 64) := do
  let span ← subInt (high.signExtend 64) (low.signExtend 64)
  addInt span 1

/-- The length of the table switch at `pc`. -/
def tableSwitchLength (code : List UInt8) (pc : BitVec 64) (opcode : UInt8) :
    Except Stop (BitVec 64) := do
  let base ← switchBase pc
  let low ← intAt code (← add base 4)
  let high ← intAt code (← add base 8)
  let count ← caseCount low high
  if count.slt 0 then throw (.refused (.unknownOpcode opcode pc.toNat))
  switchLength pc base 12 count 4

/-- The length of the lookup switch at `pc`. -/
def lookupSwitchLength (code : List UInt8) (pc : BitVec 64) (opcode : UInt8) :
    Except Stop (BitVec 64) := do
  let base ← switchBase pc
  let pairs ← intAt code (← add base 4)
  if pairs.slt 0 then throw (.refused (.unknownOpcode opcode pc.toNat))
  switchLength pc base 8 (pairs.signExtend 64) 8

/-- The length of the instruction at `pc`, opcode included. -/
def instructionLength (code : List UInt8) (pc : BitVec 64) : Except Stop (BitVec 64) := do
  let opcode ← byteAt code pc
  match Operands.ofOpcode opcode with
  | .fixed length => return BitVec.ofNat 64 (length + 1)
  | .tableSwitch => tableSwitchLength code pc opcode
  | .lookupSwitch => lookupSwitchLength code pc opcode
  | .wide =>
    let next ← add pc 1
    match code[next.toNat]? with
    | some widened => return if widened = 0x84 then 6 else 4
    | none => throw (.refused (.truncated pc.toNat 1))
  | .unassigned => throw (.refused (.unknownOpcode opcode pc.toNat))

/-- The instruction of the opcode at `pc`, once its operands are known to be there. -/
def instructionAt (pool : ConstantPool) (code : List UInt8) (pc : BitVec 64) (opcode : UInt8) :
    Except Stop Instruction :=
  match InvokeKind.ofOpcode? opcode with
  | some kind => do
    let a ← byteAt code (← add pc 1)
    let b ← byteAt code (← add pc 2)
    let (owner, name, descriptor) ← (pool.methodRef (word16 a b)).mapError .refused
    return .invocation ⟨kind, dotted owner, name, descriptor⟩
  | none => .ok (.other opcode)

/-- Decodes the code from `pc` on, onto `done`. -/
def instructionsFrom (pool : ConstantPool) (code : List UInt8) :
    (turns : Nat) → (pc : BitVec 64) → (done : List Instruction) → Except Stop (List Instruction)
  | 0, _, _ => .error .endless
  | turns + 1, pc, done =>
    if pc < size code then do
      let opcode ← byteAt code pc
      let length ← instructionLength code pc
      let stop ← add pc length
      if size code < stop then
        let needed ← sub stop (size code)
        .error (.refused (.truncated pc.toNat needed.toNat))
      else
        let decoded ← instructionAt pool code pc opcode
        let next ← add pc length
        instructionsFrom pool code turns next (decoded :: done)
    else .ok done.reverse

/-- The instructions of a code array, in at most one turn for each byte and one for the end. -/
def decodeInstructions (pool : ConstantPool) (code : List UInt8) : Except Stop (List Instruction) :=
  instructionsFrom pool code (code.length + 1) 0 []

section Lengths

variable {code rest : List UInt8} {pc : BitVec 64} {opcode : UInt8}

/-- An opcode is in the code, with what follows it. -/
structure Opens (code : List UInt8) (pc : BitVec 64) (opcode : UInt8) (rest : List UInt8) :
    Prop where
  short : Addressable code
  here : code.drop pc.toNat = opcode :: rest

namespace Opens

variable (opens : Opens code pc opcode rest)

include opens

theorem length : code.length = pc.toNat + 1 + rest.length := by
  have length := congrArg List.length opens.here
  rw [List.length_drop, List.length_cons] at length
  omega

theorem bound : code.length < 2 ^ 63 := opens.short

theorem drop (skip : Nat) : code.drop (pc.toNat + 1 + skip) = rest.drop skip := by
  rw [Nat.add_assoc, ← List.drop_drop, opens.here, Nat.add_comm 1 skip, List.drop_succ_cons]

end Opens

theorem exists_padding (opens : Opens code pc opcode rest) :
    ∃ padding, switchPadding pc = .ok padding ∧
      padding.toNat = ClassFile.switchPadding pc.toNat := by
  have length := opens.length
  have bound := opens.bound
  have one : (1 : BitVec 64).toNat = 1 := rfl
  have four : (4 : BitVec 64).toNat = 4 := rfl
  obtain ⟨next, ranNext, placeNext⟩ := exists_add (a := pc) (b := 1) (by omega)
  have part : (next % 4).toNat = (pc.toNat + 1) % 4 := by
    rw [BitVec.toNat_umod, placeNext, four, one]
  obtain ⟨gap, ranGap, valueGap⟩ := exists_sub (a := 4) (b := next % 4) (by omega)
  refine ⟨gap % 4, ?_, ?_⟩
  · rw [switchPadding, ranNext]
    change (sub 4 (next % 4) >>= _) = _
    rw [ranGap]
    rfl
  · rw [BitVec.toNat_umod, valueGap, part, four, ClassFile.switchPadding]

theorem exists_base (opens : Opens code pc opcode rest) :
    ∃ base, switchBase pc = .ok base ∧
      base.toNat = pc.toNat + 1 + ClassFile.switchPadding pc.toNat := by
  have length := opens.length
  have bound := opens.bound
  have one : (1 : BitVec 64).toNat = 1 := rfl
  obtain ⟨padding, ranPadding, value⟩ := exists_padding opens
  have small := switchPadding_lt pc.toNat
  obtain ⟨next, ranNext, placeNext⟩ := exists_add (a := pc) (b := 1) (by omega)
  obtain ⟨base, ranBase, placeBase⟩ := exists_add (a := next) (b := padding) (by omega)
  refine ⟨base, ?_, by omega⟩
  rw [switchBase, ranNext, ranPadding]
  exact ranBase

/-- Where a fixed operand of a switch is. -/
theorem exists_operand (opens : Opens code pc opcode rest) {base : BitVec 64}
    (place : base.toNat = pc.toNat + 1 + ClassFile.switchPadding pc.toNat) (skip : BitVec 64)
    {n : Nat} (isSkip : skip.toNat = n) (near : n ≤ 8) :
    ∃ offset, add base skip = .ok offset ∧
      offset.toNat = pc.toNat + 1 + (ClassFile.switchPadding pc.toNat + n) := by
  have length := opens.length
  have bound := opens.bound
  have small := switchPadding_lt pc.toNat
  obtain ⟨offset, ran, sum⟩ := exists_add (a := base) (b := skip) (by omega)
  exact ⟨offset, ran, by omega⟩

theorem exists_switchLength (pc base fixed count width : BitVec 64) {f w : Nat}
    (isFixed : fixed.toNat = f) (isWidth : width.toNat = w) (forward : pc.toNat ≤ base.toNat)
    (fits : base.toNat - pc.toNat + f + count.toNat * w < 2 ^ 64) :
    ∃ length, switchLength pc base fixed count width = .ok length ∧
      length.toNat = base.toNat - pc.toNat + f + count.toNat * w := by
  subst isFixed isWidth
  obtain ⟨before, ranBefore, valueBefore⟩ := exists_sub forward
  obtain ⟨head, ranHead, valueHead⟩ := exists_add (a := before) (b := fixed) (by omega)
  obtain ⟨table, ranTable, valueTable⟩ := exists_mul (a := count) (b := width) (by omega)
  obtain ⟨length, ranLength, value⟩ := exists_add (a := head) (b := table) (by omega)
  refine ⟨length, ?_, by omega⟩
  rw [switchLength, ranBefore]
  change (add before fixed >>= _) = _
  rw [ranHead, ranTable]
  exact ranLength

theorem intAt_matches (opens : Opens code pc opcode rest) {offset : BitVec 64} {skip : Nat}
    (place : offset.toNat = pc.toNat + 1 + skip) (near : skip < 16) :
    Matches (fun word n => word.toInt = n) (intAt code offset)
      (operandWord pc.toNat rest skip) := by
  have length := opens.length
  have bound := opens.bound
  have size := toNat_size opens.short
  have four : (4 : BitVec 64).toNat = 4 := rfl
  obtain ⟨stop, ran, placeStop⟩ := exists_add (a := offset) (b := 4) (by omega)
  rw [intAt]
  apply Matches.given ran
  by_cases there : skip + 4 ≤ rest.length
  · obtain ⟨a, b, c, d, tail, word⟩ :
        ∃ a b c d tail, rest.drop skip = a :: b :: c :: d :: tail := by
      have enough : 4 ≤ (rest.drop skip).length := by
        rw [List.length_drop]
        omega
      match rest.drop skip, enough with
      | a :: b :: c :: d :: tail, _ => exact ⟨a, b, c, d, tail, rfl⟩
    have width : stop.toNat - offset.toNat = 4 := by omega
    rw [slice_eq_ok opens.short (by omega) (by omega), width, place, opens.drop, operandWord, word]
    exact .ok rfl
  · have missing : stop.toNat - code.length = skip + 4 - rest.length := by omega
    rw [slice_eq_outside opens.short (by omega), operandWord_of_lt (by omega), size, missing, place]
    apply Matches.refused
    rw [LacksSome]
    omega

/-- An instruction takes its opcode and its operands, which are not too many for a sum of words. -/
structure Measures (length : BitVec 64) (operands : Nat) : Prop where
  whole : length.toNat = operands + 1
  bounded : operands < 2 ^ 35

/-- No two bounds are so far apart that their distance leaves a signed word. -/
theorem exists_caseCount (low high : BitVec 32) :
    ∃ count, caseCount low high = .ok count ∧ count.toInt = high.toInt - low.toInt + 1 := by
  have lowAbove := low.le_toInt
  have lowBelow : low.toInt < _ := BitVec.toInt_lt
  have highAbove := high.le_toInt
  have highBelow : high.toInt < _ := BitVec.toInt_lt
  have lowWide : (low.signExtend 64).toInt = low.toInt := BitVec.toInt_signExtend_of_le (by decide)
  have highWide : (high.signExtend 64).toInt = high.toInt :=
    BitVec.toInt_signExtend_of_le (by decide)
  have one : (1 : BitVec 64).toInt = 1 := rfl
  obtain ⟨span, ranSpan, valueSpan⟩ := exists_subInt (a := high.signExtend 64)
    (b := low.signExtend 64) (by omega) (by omega)
  obtain ⟨count, ranCount, value⟩ := exists_addInt (a := span) (b := 1) (by omega) (by omega)
  refine ⟨count, ?_, by omega⟩
  rw [caseCount, ranSpan]
  exact ranCount

section Signed

variable {w : Nat} {word : BitVec w}

theorem slt_zero_iff : word.slt 0 ↔ word.toInt < 0 := by
  rw [BitVec.slt_iff_toInt_lt]
  exact Iff.of_eq (congrArg _ BitVec.toInt_zero)

/-- A signed word that is not negative is the same number unsigned. -/
theorem toNat_of_not_slt (positive : ¬word.slt 0) : word.toNat = word.toInt.toNat := by
  rw [slt_zero_iff] at positive
  have cond := word.toInt_eq_toNat_cond
  split at cond <;> omega

end Signed

theorem tableSwitchLength_matches (opens : Opens code pc opcode rest)
    (form : Operands.ofOpcode opcode = .tableSwitch) :
    Matches Measures (tableSwitchLength code pc opcode) (operandLength pc.toNat opcode rest) := by
  have small := switchPadding_lt pc.toNat
  obtain ⟨base, ranBase, placeBase⟩ := exists_base opens
  obtain ⟨atLow, ranLow, placeLow⟩ := exists_operand opens placeBase 4 (n := 4) rfl (by decide)
  obtain ⟨atHigh, ranHigh, placeHigh⟩ := exists_operand opens placeBase 8 (n := 8) rfl (by decide)
  rw [operandLength.eq_def, form, tableSwitchLength]
  apply Matches.given ranBase
  apply Matches.given ranLow
  apply (intAt_matches opens placeLow (by omega)).bind
  rintro low _ rfl
  apply Matches.given ranHigh
  apply (intAt_matches opens placeHigh (by omega)).bind
  rintro high _ rfl
  obtain ⟨count, ranCount, value⟩ := exists_caseCount low high
  apply Matches.given ranCount
  by_cases negative : count.slt 0
  · rw [if_pos negative, if_pos (value ▸ slt_zero_iff.mp negative)]
    exact .refused trivial
  · have below : high.toInt < 2 ^ 31 := BitVec.toInt_lt
    have above : -2 ^ 31 ≤ low.toInt := low.le_toInt
    have cases := toNat_of_not_slt negative
    obtain ⟨whole, ran, valueWhole⟩ := exists_switchLength pc base 12 count 4 (f := 12) (w := 4)
      rfl rfl (by omega) (by omega)
    rw [if_neg negative, if_neg (value ▸ mt slt_zero_iff.mpr negative), ran]
    exact .ok ⟨by omega, by omega⟩

theorem lookupSwitchLength_matches (opens : Opens code pc opcode rest)
    (form : Operands.ofOpcode opcode = .lookupSwitch) :
    Matches Measures (lookupSwitchLength code pc opcode) (operandLength pc.toNat opcode rest) := by
  have small := switchPadding_lt pc.toNat
  obtain ⟨base, ranBase, placeBase⟩ := exists_base opens
  obtain ⟨atPairs, ranPairs, placePairs⟩ :=
    exists_operand opens placeBase 4 (n := 4) rfl (by decide)
  rw [operandLength.eq_def, form, lookupSwitchLength]
  apply Matches.given ranBase
  apply Matches.given ranPairs
  apply (intAt_matches opens placePairs (by omega)).bind
  rintro pairs _ rfl
  by_cases negative : pairs.slt 0
  · rw [if_pos negative, if_pos (slt_zero_iff.mp negative)]
    exact .refused trivial
  · have below : pairs.toInt < 2 ^ 31 := BitVec.toInt_lt
    have same : (pairs.signExtend 64).toInt = pairs.toInt :=
      BitVec.toInt_signExtend_of_le (by decide)
    have count : (pairs.signExtend 64).toNat = pairs.toInt.toNat := by
      rw [← same]
      apply toNat_of_not_slt
      rwa [slt_zero_iff, same, ← slt_zero_iff]
    obtain ⟨whole, ran, valueWhole⟩ := exists_switchLength pc base 8 (pairs.signExtend 64) 8
      (f := 8) (w := 8) rfl rfl (by omega) (by omega)
    rw [if_neg negative, if_neg (mt slt_zero_iff.mpr negative), ran]
    exact .ok ⟨by omega, by omega⟩

theorem instructionLength_matches (opens : Opens code pc opcode rest) :
    Matches Measures (instructionLength code pc) (operandLength pc.toNat opcode rest) := by
  rw [instructionLength]
  apply Matches.given (byteAt_eq_ok opens.here)
  cases form : Operands.ofOpcode opcode with
  | fixed n =>
    have small := le_of_ofOpcode_fixed form
    have whole : (BitVec.ofNat 64 (n + 1)).toNat = n + 1 := by
      rw [BitVec.toNat_ofNat, Nat.mod_eq_of_lt (by omega)]
    rw [operandLength.eq_def, form]
    exact .ok ⟨whole, by omega⟩
  | tableSwitch => exact tableSwitchLength_matches opens form
  | lookupSwitch => exact lookupSwitchLength_matches opens form
  | wide =>
    obtain ⟨next, ran, -, -, past⟩ :=
      exists_past opens.short [opcode] rest opens.here (n := 1) rfl (List.cons_ne_nil _ _)
    rw [operandLength.eq_def, form]
    apply Matches.given ran
    rw [← List.head?_drop, past]
    cases rest with
    | nil => exact .refused Nat.le.refl
    | cons widened rest =>
      by_cases increment : widened = 0x84
      · simp only [List.head?_cons, if_pos increment]
        exact .ok ⟨rfl, by decide⟩
      · simp only [List.head?_cons, if_neg increment]
        exact .ok ⟨rfl, by decide⟩
  | unassigned =>
    rw [operandLength.eq_def, form]
    exact .refused trivial

/-- Only opcodes of the code are measured. -/
theorem exists_opens (short : Addressable code) {length : BitVec 64}
    (measured : instructionLength code pc = .ok length) :
    ∃ opcode rest, Opens code pc opcode rest := by
  cases here : code.drop pc.toNat with
  | nil =>
    rw [instructionLength, byteAt, ← List.head?_drop, here] at measured
    cases measured
  | cons opcode rest => exact ⟨opcode, rest, short, here⟩

end Lengths

section Loop

variable {code rest : List UInt8} {pc : BitVec 64} {opcode : UInt8}

/-- The index of a call is in its operands. -/
theorem instructionAt_matches (pool : ConstantPool) (opens : Opens code pc opcode rest) {n : Nat}
    (length : operandLength pc.toNat opcode rest = .ok n) (there : n ≤ rest.length) :
    Matches Eq (instructionAt pool code pc opcode) (instruction pool opcode (rest.take n)) := by
  cases call : InvokeKind.ofOpcode? opcode with
  | none =>
    rw [instructionAt, call, InstructionLayout.instruction_of_ofOpcode?_none call]
    exact .ok rfl
  | some kind =>
    rw [operandLength.eq_def, ofOpcode_of_call call] at length
    obtain rfl := Except.ok.inj length
    obtain ⟨a, b, tail, rfl⟩ : ∃ a b tail, rest = a :: b :: tail := by
      have two : 2 ≤ rest.length := Nat.le_trans (Nat.le_add_right ..) there
      match rest, two with
      | a :: b :: tail, _ => exact ⟨a, b, tail, rfl⟩
    obtain ⟨first, ranFirst, -, -, atFirst⟩ :=
      exists_past opens.short [opcode] _ opens.here (n := 1) rfl (List.cons_ne_nil _ _)
    obtain ⟨second, ranSecond, -, -, atSecond⟩ :=
      exists_past opens.short [opcode, a] _ opens.here (n := 2) rfl (List.cons_ne_nil _ _)
    have operands :
        (a :: b :: tail).take (2 + kind.surplus) = a :: b :: tail.take kind.surplus := by
      rw [Nat.add_comm]
      rfl
    rw [operands, instructionAt, instruction.eq_def, call]
    apply Matches.given ranFirst
    apply Matches.given (byteAt_eq_ok atFirst)
    apply Matches.given ranSecond
    apply Matches.given (byteAt_eq_ok atSecond)
    apply (methodRef_matches pool (word16 a b)).bind
    rintro names _ rfl
    exact .ok rfl

theorem instructionsFrom_matches (pool : ConstantPool) (short : Addressable code) (turns : Nat)
    (pc : BitVec 64) (done : List Instruction) (inside : pc.toNat ≤ code.length)
    (enough : code.length < pc.toNat + turns) :
    Matches Eq (instructionsFrom pool code turns pc done)
      (ClassFile.instructionsFrom pool done pc.toNat 0 (code.drop pc.toNat)) := by
  have size := toNat_size short
  induction turns generalizing pc done with
  | zero => omega
  | succ turns ih =>
    rw [instructionsFrom]
    cases left : code.drop pc.toNat with
    | nil =>
      rw [if_neg (not_lt_size_of_nil short left)]
      exact .ok rfl
    | cons opcode rest =>
      have opens : Opens code pc opcode rest := ⟨short, left⟩
      have length := opens.length
      have bound := opens.bound
      rw [if_pos (lt_size_of_cons short left), instructionsFrom_cons]
      apply Matches.given (byteAt_eq_ok left)
      apply (instructionLength_matches opens).ran.bind
      rintro words n ⟨⟨whole, bounded⟩, measured⟩
      obtain ⟨stop, ran, place⟩ := exists_add (a := pc) (b := words) (by omega)
      apply Matches.given ran
      by_cases there : n ≤ rest.length
      · have fits : ¬Checked.size code < stop := by
          rw [BitVec.lt_def]
          omega
        have past : code.drop stop.toNat = rest.drop n := by
          rw [← opens.drop, place, whole]
          congr 1
          omega
        have next : pc.toNat + 1 + n = stop.toNat := by omega
        rw [if_neg fits, if_pos there]
        apply (instructionAt_matches pool opens measured there).bind
        rintro decoded _ rfl
        apply Matches.given ran
        rw [next, ← past]
        exact ih stop (decoded :: done) (by omega) (by omega)
      · have missing : Checked.size code < stop := by
          rw [BitVec.lt_def]
          omega
        obtain ⟨needed, ranNeeded, value⟩ := exists_sub (a := stop) (b := Checked.size code)
          (Nat.le_of_lt (BitVec.lt_def.mp missing))
        have same : needed.toNat = n - rest.length := by omega
        rw [if_pos missing, if_neg there]
        apply Matches.given ranNeeded
        rw [same]
        apply Matches.refused
        rw [LacksSome]
        omega

theorem decodeInstructions_matches (pool : ConstantPool) (short : Addressable code) :
    Matches Eq (decodeInstructions pool code) (ClassFile.decodeInstructions pool code) :=
  instructionsFrom_matches pool short (code.length + 1) 0 [] (Nat.zero_le _)
    (Nat.lt_of_lt_of_le (Nat.lt_succ_self _) (Nat.le_add_left _ _))

end Loop

end Checked

end JarCensus.ClassFile
