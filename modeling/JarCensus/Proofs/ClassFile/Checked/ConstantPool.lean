import JarCensus.ClassFile.ConstantPool
import JarCensus.Proofs.ClassFile.Checked.ModifiedUtf8

/-! The constant pool with a 16-bit counter. The counter stays at most the slot count, also in
steps of two, since the second slot of a wide constant is compared with the count first. -/
namespace JarCensus.ClassFile.Checked

/-- Reads what follows a tag. -/
def readConstant : Tag → WordReader Constant
  | .utf8 => do
    let length ← WordReader.u2
    let bytes ← WordReader.bytes (widen length.toBitVec)
    let text ← WordReader.check (decodeText bytes)
    return .utf8 text
  | .classInfo => do
    let name ← WordReader.u2
    return .classInfo name
  | .methodRef | .interfaceMethodRef => do
    let owner ← WordReader.u2
    let nameAndType ← WordReader.u2
    return .methodRef owner nameAndType
  | .nameAndType => do
    let name ← WordReader.u2
    let descriptor ← WordReader.u2
    return .nameAndType name descriptor
  | .integer | .float | .fieldRef | .dynamic | .invokeDynamic => do
    WordReader.skip 4
    return .other
  | .long | .double => do
    WordReader.skip 8
    return .other
  | .string | .methodType | .moduleInfo | .packageInfo => do
    WordReader.skip 2
    return .other
  | .methodHandle => do
    WordReader.skip 3
    return .other

/-- Fills the slots from `index` up to `count`. -/
def readSlots (count : BitVec 16) : (turns : Nat) → (index : BitVec 16) →
    Array (Option Constant) → WordReader (Array (Option Constant))
  | 0, _, _ => throw .endless
  | turns + 1, index, slots =>
    if index < count then do
      let byte ← WordReader.u1
      match Tag.ofByte? byte with
      | none => throw (.refused (.unknownTag byte ⟨index⟩))
      | some tag =>
        if tag.isWide then do
          let second ← WordReader.check (add index 1)
          if count ≤ second then throw (.refused (.badIndex ⟨index⟩))
          else do
            let constant ← readConstant tag
            let index ← WordReader.check (add index 1)
            let next ← WordReader.check (add index 1)
            readSlots count turns next ((slots.push (some constant)).push none)
        else do
          let constant ← readConstant tag
          let next ← WordReader.check (add index 1)
          readSlots count turns next (slots.push (some constant))
    else return slots

/-- Reads the slot count and the slots. -/
def readPool : WordReader ConstantPool := do
  let count ← WordReader.u2
  let slots ← readSlots count.toBitVec (count.toNat + 1) 1 #[none]
  return ⟨slots⟩

theorem readConstant_follows (tag : Tag) :
    Follows Eq (readConstant tag) (ClassFile.readConstant tag) := by
  have skipped : ∀ {n : BitVec 64} {m : Nat}, n.toNat = m →
      Follows Eq (do WordReader.skip n; return Constant.other)
        (do Reader.skip m; return Constant.other) :=
    fun same => (Follows.skip same).bind_same fun _ => .pure rfl
  cases tag with
  | utf8 =>
    apply Follows.u2.bind_same
    intro length
    apply (Follows.bytes (toNat_widen length.toBitVec (by decide))).bind
    rintro bytes _ ⟨rfl, short⟩
    apply (Follows.check (decodeText_matches short)).bind_same
    intro text
    exact .pure rfl
  | classInfo => exact Follows.u2.bind_same fun _ => .pure rfl
  | methodRef | interfaceMethodRef | nameAndType =>
    exact Follows.u2.bind_same fun _ => Follows.u2.bind_same fun _ => .pure rfl
  | integer | float | fieldRef | dynamic | invokeDynamic => exact skipped rfl
  | long | double => exact skipped rfl
  | string | methodType | moduleInfo | packageInfo => exact skipped rfl
  | methodHandle => exact skipped rfl

theorem exists_increment {index count : BitVec 16} (below : index.toNat < count.toNat) :
    ∃ next, add index 1 = .ok next ∧ next.toNat = index.toNat + 1 ∧
      (⟨index⟩ + 1 : UInt16) = ⟨next⟩ := by
  have bound := count.isLt
  have one : (1 : BitVec 16).toNat = 1 := rfl
  obtain ⟨next, ran, place⟩ := exists_add (a := index) (b := 1) (by omega)
  refine ⟨next, ran, place, ?_⟩
  rw [← UInt16.toBitVec_inj, UInt16.toBitVec_add]
  apply BitVec.eq_of_toNat_eq
  change (index + 1).toNat = next.toNat
  rw [place, BitVec.toNat_add, one, Nat.mod_eq_of_lt (by omega)]

/-- The counter and the number of slots still to fill add up to the count. -/
theorem readSlots_follows (count : BitVec 16) (turns remaining : Nat) (index : BitVec 16)
    (slots : Array (Option Constant)) (left : count.toNat - index.toNat = remaining)
    (enough : remaining < turns) :
    Follows Eq (readSlots count turns index slots)
      (ConstantPool.readSlots remaining ⟨index⟩ slots) := by
  induction turns generalizing remaining index slots with
  | zero => omega
  | succ turns ih =>
    rw [readSlots]
    cases remaining with
    | zero =>
      have full : ¬index < count := by
        rw [BitVec.lt_def]
        omega
      rw [if_neg full]
      exact .pure rfl
    | succ remaining =>
      have more : index < count := by
        rw [BitVec.lt_def]
        omega
      obtain ⟨next, ran, place, word⟩ := exists_increment (BitVec.lt_def.mp more)
      rw [if_pos more, ConstantPool.readSlots]
      apply Follows.u1.bind_same
      intro byte
      cases Tag.ofByte? byte with
      | none => exact .throw trivial
      | some tag =>
        by_cases wide : tag.isWide
        · simp only [if_pos wide]
          apply Follows.given ran
          cases remaining with
          | zero =>
            have last : count ≤ next := by
              rw [BitVec.le_def]
              omega
            rw [if_pos last]
            exact .throw trivial
          | succ remaining =>
            have inside : ¬count ≤ next := by
              rw [BitVec.le_def]
              omega
            obtain ⟨after, ranAfter, placeAfter, wordAfter⟩ :=
              exists_increment (BitVec.lt_def.mp (BitVec.not_le.mp inside))
            have two : (⟨index⟩ + 2 : UInt16) = ⟨after⟩ := by
              rw [← wordAfter, ← word, UInt16.add_assoc]
              rfl
            rw [if_neg inside]
            apply (readConstant_follows tag).bind_same
            intro constant
            apply Follows.given ran
            apply Follows.given ranAfter
            rw [two]
            exact ih remaining after _ (by omega) (by omega)
        · simp only [if_neg wide]
          apply (readConstant_follows tag).bind_same
          intro constant
          apply Follows.given ran
          rw [word]
          exact ih remaining next _ (by omega) (by omega)

theorem readPool_follows : Follows Eq readPool ConstantPool.read := by
  apply Follows.u2.bind_same
  intro count
  have filled := readSlots_follows count.toBitVec (count.toNat + 1) (count.toNat - 1) 1 #[none] rfl
    (Nat.lt_succ_of_le (Nat.sub_le ..))
  apply filled.bind_same
  intro slots
  exact .pure rfl

section Lookups

variable (pool : ConstantPool) (index : UInt16)

/-- Steps that lack no bytes lack none one after the other. -/
theorem Matches.mapError_bind {α β : Type} {first : Except FormatError α}
    {next : α → Except FormatError β} (ran : Matches Eq (first.mapError .refused) first)
    (rest : ∀ a, Matches Eq ((next a).mapError .refused) (next a)) :
    Matches Eq ((first >>= next).mapError .refused) (first >>= next) := by
  cases first with
  | error e => exact .refused ran.lacksSome
  | ok a => exact rest a

theorem get_matches : Matches Eq ((pool.get index).mapError .refused) (pool.get index) := by
  rw [ConstantPool.get]
  split
  next constant _ => exact .ok rfl
  next => exact .refused trivial

theorem text_matches : Matches Eq ((pool.text index).mapError .refused) (pool.text index) := by
  apply (get_matches pool index).mapError_bind
  intro constant
  cases constant with
  | utf8 text => exact .ok rfl
  | _ => exact .refused trivial

theorem className_matches :
    Matches Eq ((pool.className index).mapError .refused) (pool.className index) := by
  apply (get_matches pool index).mapError_bind
  intro constant
  cases constant with
  | classInfo name => exact text_matches pool name
  | _ => exact .refused trivial

theorem methodRef_matches :
    Matches Eq ((pool.methodRef index).mapError .refused) (pool.methodRef index) := by
  apply (get_matches pool index).mapError_bind
  intro constant
  cases constant with
  | methodRef owner nameAndType =>
    apply (get_matches pool nameAndType).mapError_bind
    intro constant
    cases constant with
    | nameAndType name descriptor =>
      apply (className_matches pool owner).mapError_bind
      intro owner
      apply (text_matches pool name).mapError_bind
      intro name
      apply (text_matches pool descriptor).mapError_bind
      intro descriptor
      exact .ok rfl
    | _ => exact .refused trivial
  | _ => exact .refused trivial

end Lookups

end JarCensus.ClassFile.Checked
