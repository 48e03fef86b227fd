import JarCensus.ClassFile.Decode
import JarCensus.Proofs.ClassFile.Checked.Instructions

/-! Decoding class data on machine words gives what decoding on numbers gives: no sum, difference or
product leaves its word, no index or slice leaves its bytes, every loop ends, and data that is cut
short is reported with one byte missing at least. -/
namespace JarCensus.ClassFile.Checked

/-- Passes over one attribute: name index, length, body. -/
def skipAttribute : WordReader Unit := do
  WordReader.skip 2
  let length ← WordReader.u4
  WordReader.skip (widen length.toBitVec)

/-- Passes over a table of attributes. -/
def skipAttributes : WordReader Unit := do
  let _ ← WordReader.table skipAttribute

/-- Passes over one field: access flags, name and descriptor indices, attributes. -/
def skipField : WordReader Unit := do
  WordReader.skip 6
  skipAttributes

/-- The code array of a `Code` body. Entries of the exception table have eight bytes each. -/
def codeArray : WordReader (List UInt8) := do
  WordReader.skip 4
  let length ← WordReader.u4
  let code ← WordReader.bytes (widen length.toBitVec)
  let exceptions ← WordReader.u2
  let width ← WordReader.check (mul (widen exceptions.toBitVec) 8)
  WordReader.skip width
  skipAttributes
  return code

/-- The instructions of a `Code` body. -/
def decodeBody (pool : ConstantPool) (body : List UInt8) : Except Stop (List Instruction) := do
  let code ← codeArray.runOn body
  decodeInstructions pool code

/-- The text at an index of the pool. -/
def text (pool : ConstantPool) (index : UInt16) : WordReader String :=
  WordReader.check ((pool.text index).mapError .refused)

/-- The internal name of the class at an index of the pool. -/
def className (pool : ConstantPool) (index : UInt16) : WordReader String :=
  WordReader.check ((pool.className index).mapError .refused)

/-- Reads one attribute of a method. -/
def readMethodAttribute (pool : ConstantPool) : WordReader (Option (List Instruction)) := do
  let index ← WordReader.u2
  let name ← text pool index
  let length ← WordReader.u4
  let body ← WordReader.bytes (widen length.toBitVec)
  if name = "Code" then
    let instructions ← WordReader.check (decodeBody pool body)
    return some instructions
  else
    return none

/-- Reads one method. -/
def readMethod (pool : ConstantPool) (owner : String) : WordReader Method := do
  let access ← WordReader.u2
  let nameIndex ← WordReader.u2
  let name ← text pool nameIndex
  let descriptorIndex ← WordReader.u2
  let descriptor ← text pool descriptorIndex
  let bodies ← WordReader.table (readMethodAttribute pool)
  let instructions := ((bodies.filterMap id).getLast?).getD []
  return { owner, access, name, descriptor, instructions }

/-- Reads the index of a class and looks its name up. -/
def readClassName (pool : ConstantPool) : WordReader String := do
  let index ← WordReader.u2
  let name ← className pool index
  return dotted name

/-- Reads the superclass; index zero stands for none. -/
def readSuperName (pool : ConstantPool) : WordReader (Option String) := do
  let index ← WordReader.u2
  if index = 0 then return none
  let name ← className pool index
  return some (dotted name)

/-- Reads a whole class file. -/
def readClass : WordReader ClassFile := do
  let word ← WordReader.u4
  if word ≠ magic then throw (.refused (.badMagic word))
  let minor ← WordReader.u2
  let major ← WordReader.u2
  let pool ← readPool
  let access ← WordReader.u2
  let name ← readClassName pool
  let superName ← readSuperName pool
  let interfaces ← WordReader.table (readClassName pool)
  let _ ← WordReader.table skipField
  let methods ← WordReader.table (readMethod pool name)
  return { minor, major, access, name, superName, interfaces, methods }

/-- The class that `data` holds. -/
def decode (data : List UInt8) : Except Stop ClassFile := readClass.runOn data

theorem skipAttribute_follows : Follows Eq skipAttribute ClassFile.skipAttribute := by
  apply (Follows.skip rfl).bind_same
  intro _
  apply Follows.u4.bind_same
  intro length
  exact Follows.skip (toNat_widen length.toBitVec (by decide))

theorem skipAttributes_follows : Follows Eq skipAttributes ClassFile.skipAttributes :=
  (Follows.table skipAttribute_follows).bind_same fun _ => .pure rfl

theorem skipField_follows : Follows Eq skipField ClassFile.skipField :=
  (Follows.skip rfl).bind_same fun _ => skipAttributes_follows

theorem codeArray_follows :
    Follows (fun code code' => code = code' ∧ Addressable code) codeArray ClassFile.codeArray := by
  apply (Follows.skip rfl).bind_same
  intro _
  apply Follows.u4.bind_same
  intro length
  apply (Follows.bytes (toNat_widen length.toBitVec (by decide))).bind
  intro code code' same
  apply Follows.u2.bind_same
  intro exceptions
  have count : (widen exceptions.toBitVec).toNat = exceptions.toNat :=
    toNat_widen exceptions.toBitVec (by decide)
  have few := exceptions.toNat_lt
  have eight : (8 : BitVec 64).toNat = 8 := rfl
  obtain ⟨width, ran, value⟩ := exists_mul (a := widen exceptions.toBitVec) (b := 8)
    (by rw [count, eight]; omega)
  rw [count, eight] at value
  apply Follows.given ran
  apply (Follows.skip value).bind_same
  intro _
  apply skipAttributes_follows.bind_same
  intro _
  exact .pure same

theorem decodeBody_matches (pool : ConstantPool) {body : List UInt8} (short : Addressable body) :
    Matches Eq (decodeBody pool body) (ClassFile.decodeBody pool body) := by
  apply (codeArray_follows.runOn short).bind
  rintro code _ ⟨rfl, short⟩
  exact decodeInstructions_matches pool short

theorem text_follows (pool : ConstantPool) (index : UInt16) :
    Follows Eq (text pool index) (Reader.check (pool.text index)) :=
  .check (text_matches pool index)

theorem className_follows (pool : ConstantPool) (index : UInt16) :
    Follows Eq (className pool index) (Reader.check (pool.className index)) :=
  .check (className_matches pool index)

theorem readMethodAttribute_follows (pool : ConstantPool) :
    Follows Eq (readMethodAttribute pool) (ClassFile.readMethodAttribute pool) := by
  apply Follows.u2.bind_same
  intro index
  apply (text_follows pool index).bind_same
  intro name
  apply Follows.u4.bind_same
  intro length
  apply (Follows.bytes (toNat_widen length.toBitVec (by decide))).bind
  rintro body _ ⟨rfl, short⟩
  by_cases code : name = "Code"
  · rw [if_pos code, if_pos code]
    exact (Follows.check (decodeBody_matches pool short)).bind_same fun _ => .pure rfl
  · rw [if_neg code, if_neg code]
    exact .pure rfl

theorem readMethod_follows (pool : ConstantPool) (owner : String) :
    Follows Eq (readMethod pool owner) (ClassFile.readMethod pool owner) := by
  apply Follows.u2.bind_same
  intro access
  apply Follows.u2.bind_same
  intro nameIndex
  apply (text_follows pool nameIndex).bind_same
  intro name
  apply Follows.u2.bind_same
  intro descriptorIndex
  apply (text_follows pool descriptorIndex).bind_same
  intro descriptor
  apply (Follows.table (readMethodAttribute_follows pool)).bind_same
  intro bodies
  exact .pure rfl

theorem readClassName_follows (pool : ConstantPool) :
    Follows Eq (readClassName pool) (ClassFile.readClassName pool) := by
  apply Follows.u2.bind_same
  intro index
  apply (className_follows pool index).bind_same
  intro name
  exact .pure rfl

theorem readSuperName_follows (pool : ConstantPool) :
    Follows Eq (readSuperName pool) (ClassFile.readSuperName pool) := by
  apply Follows.u2.bind_same
  intro index
  by_cases absent : index = 0
  · rw [if_pos absent, if_pos absent]
    exact .pure rfl
  · rw [if_neg absent, if_neg absent]
    apply (className_follows pool index).bind_same
    intro name
    exact .pure rfl

theorem readClass_follows : Follows Eq readClass ClassFile.readClass := by
  apply Follows.u4.bind_same
  intro word
  by_cases other : word ≠ magic
  · rw [if_pos other, if_pos other]
    exact .throw trivial
  · rw [if_neg other, if_neg other]
    apply Follows.u2.bind_same
    intro minor
    apply Follows.u2.bind_same
    intro major
    apply readPool_follows.bind_same
    intro pool
    apply Follows.u2.bind_same
    intro access
    apply (readClassName_follows pool).bind_same
    intro name
    apply (readSuperName_follows pool).bind_same
    intro superName
    apply (Follows.table (readClassName_follows pool)).bind_same
    intro interfaces
    apply (Follows.table skipField_follows).bind_same
    intro _
    apply (Follows.table (readMethod_follows pool name)).bind_same
    intro methods
    exact .pure rfl

theorem decode_matches {data : List UInt8} (short : Addressable data) :
    Matches Eq (decode data) (ClassFile.decode data) :=
  readClass_follows.runOn short

/-- On data shorter than `2 ^ 63` bytes no sum, difference or product of the decoder leaves its
word, no index or slice its bytes, and no loop goes on without end: what comes out is what decoding
on numbers gives, and where bytes are missing at least one is. Whatever the operands of an
instruction are, it takes one byte at least and ends where a word can say. -/
theorem decode_stays_within_words (data : List UInt8) (short : data.length < 2 ^ 63) :
    (∀ stop ∈ [Stop.overflow, Stop.outside, Stop.endless], decode data ≠ .error stop) ∧
    decode data = (ClassFile.decode data).mapError .refused ∧
    (∀ offset needed, ClassFile.decode data = .error (.truncated offset needed) → 1 ≤ needed) ∧
    ∀ code pc length, code.length < 2 ^ 63 → instructionLength code pc = .ok length →
      1 ≤ length.toNat ∧ pc.toNat + length.toNat < 2 ^ 64 := by
  have run := decode_matches short
  refine ⟨?_, run.eq_mapError, ?_, ?_⟩
  · intro stop broken stopped
    rw [stopped] at run
    obtain ⟨e, rfl⟩ := run.exists_refused
    simp at broken
  · intro offset needed failed
    rw [failed] at run
    exact run.lacksSome
  · intro code pc length short measured
    obtain ⟨opcode, rest, opens⟩ := exists_opens short measured
    have place := opens.length
    have bound := opens.bound
    have lengths := instructionLength_matches opens
    rw [measured] at lengths
    obtain ⟨n, -, whole, bounded⟩ := lengths.exists_ok
    omega

/-- A table switch over all the 32-bit words. -/
def widestSwitch : List UInt8 :=
  [0xaa, 0, 0, 0, 0, 0, 0, 0, 0x80, 0, 0, 0, 0x7f, 0xff, 0xff, 0xff]

/-- A class whose only method has the code `widestSwitch`. -/
def widestSwitcher : List UInt8 :=
  bytes32 magic ++ [0, 0, 0, 52, 0, 4, 1, 0, 1, 0x41, 7, 0, 1, 1, 0, 4, 0x43, 0x6f, 0x64, 0x65] ++
    [0, 0, 0, 2, 0, 0, 0, 0, 0, 0, 0, 1, 0, 0, 0, 1, 0, 1, 0, 1, 0, 3, 0, 0, 0, 28] ++
    [0, 0, 0, 0, 0, 0, 0, 16] ++ widestSwitch ++ [0, 0, 0, 0]

/-- The table is not there, and counting what is missing of it does not leave the word. -/
theorem decode_widestSwitcher :
    widestSwitcher.length < 2 ^ 63 ∧ widestSwitch.length < 2 ^ 63 ∧
    decode widestSwitcher = .error (.refused (.truncated 0 (2 ^ 34))) ∧
    instructionLength widestSwitch 0 = .ok (BitVec.ofNat 64 (2 ^ 34 + 16)) ∧
    (0 : BitVec 64).toNat + (BitVec.ofNat 64 (2 ^ 34 + 16)).toNat < 2 ^ 64 := by
  have short : widestSwitcher.length < 2 ^ 63 := by decide
  have shortCode : widestSwitch.length < 2 ^ 63 := by decide
  have refused : ClassFile.decode widestSwitcher = .error (.truncated 0 (2 ^ 34)) := by
    decide +kernel
  have measured : instructionLength widestSwitch 0 = .ok (BitVec.ofNat 64 (2 ^ 34 + 16)) := by
    decide +kernel
  obtain ⟨-, same, -, lengths⟩ := decode_stays_within_words widestSwitcher short
  rw [refused] at same
  exact ⟨short, shortCode, same, measured, (lengths _ _ _ shortCode measured).2⟩

end JarCensus.ClassFile.Checked
