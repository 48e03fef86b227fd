import JarCensus.ClassFile.ModifiedUtf8
import JarCensus.Proofs.Text.Utf16
import Mathlib.Algebra.Group.Nat.Defs

/-! The groups of modified UTF-8 by their payload bits. A byte string is text exactly if it is a
sequence of groups, and its units are then theirs. -/
namespace JarCensus.ClassFile.ModifiedUtf8

open Text.Utf16 (unitsOf)
open Text.Utf8 (isContinuation)

/-- The bits that a group of one, two or three bytes carries. -/
inductive Group where
  | one (a : BitVec 7)
  | two (a : BitVec 5) (b : BitVec 6)
  | three (a : BitVec 4) (b c : BitVec 6)
  deriving DecidableEq, Repr

/-- `10xxxxxx` -/
def continuation (bits : BitVec 6) : UInt8 := ⟨0b10#2 ++ bits⟩

/-- `0xxxxxxx`, `110xxxxx 10xxxxxx` or `1110xxxx 10xxxxxx 10xxxxxx` -/
def Group.bytes : Group → List UInt8
  | .one a => [⟨0#1 ++ a⟩]
  | .two a b => [⟨0b110#3 ++ a⟩, continuation b]
  | .three a b c => [⟨0b1110#4 ++ a⟩, continuation b, continuation c]

/-- The bits of a group, read as one number. -/
def Group.unit : Group → UInt16
  | .one a => ⟨0#9 ++ a⟩
  | .two a b => ⟨0#5 ++ a ++ b⟩
  | .three a b c => ⟨a ++ b ++ c⟩

/-- The bytes of several groups. -/
def encode (groups : List Group) : List UInt8 := groups.flatMap Group.bytes

/-- The text that several groups stand for. -/
def text (groups : List Group) : String :=
  String.ofList (Text.Utf16.lossy (groups.map Group.unit))

theorem toNat_append (m n : Nat) (a : BitVec m) (b : BitVec n) :
    (a ++ b).toNat = a.toNat * 2 ^ n + b.toNat := by
  rw [BitVec.toNat_append, ← Nat.shiftLeft_add_eq_or_of_lt b.isLt, Nat.shiftLeft_eq]

/-- Words that begin with the bits of `front` are those of one range. -/
theorem exists_append_iff (m n : Nat) (front : BitVec m) (word : BitVec (m + n)) :
    (∃ a : BitVec n, word = front ++ a) ↔ word.toNat / 2 ^ n = front.toNat := by
  constructor
  · rintro ⟨a, rfl⟩
    rw [toNat_append, Nat.mul_comm, Nat.mul_add_div (Nat.two_pow_pos n), Nat.div_eq_of_lt a.isLt,
      Nat.add_zero]
  · intro begins
    refine ⟨word.setWidth n, BitVec.eq_of_toNat_eq ?_⟩
    rw [toNat_append, BitVec.toNat_setWidth, ← begins, Nat.div_add_mod']

theorem ascii_iff (byte : UInt8) : byte < 0x80 ↔ ∃ a : BitVec 7, byte = ⟨0#1 ++ a⟩ := by
  have range : (∃ a : BitVec 7, byte.toBitVec = 0#1 ++ a) ↔ byte.toNat / 2 ^ 7 = 0 :=
    exists_append_iff 1 7 0#1 byte.toBitVec
  simp only [← UInt8.toBitVec_inj, range, UInt8.lt_iff_toNat_lt, UInt8.reduceToNat]
  omega

theorem opensTwo_iff (byte : UInt8) :
    opensTwo byte = true ↔ ∃ a : BitVec 5, byte = ⟨0b110#3 ++ a⟩ := by
  have range : (∃ a : BitVec 5, byte.toBitVec = 0b110#3 ++ a) ↔ byte.toNat / 2 ^ 5 = 0b110 :=
    exists_append_iff 3 5 0b110#3 byte.toBitVec
  simp only [opensTwo, Bool.and_eq_true, decide_eq_true_eq, ← UInt8.toBitVec_inj, range,
    UInt8.le_iff_toNat_le, UInt8.reduceToNat]
  omega

theorem opensThree_iff (byte : UInt8) :
    opensThree byte = true ↔ ∃ a : BitVec 4, byte = ⟨0b1110#4 ++ a⟩ := by
  have range : (∃ a : BitVec 4, byte.toBitVec = 0b1110#4 ++ a) ↔ byte.toNat / 2 ^ 4 = 0b1110 :=
    exists_append_iff 4 4 0b1110#4 byte.toBitVec
  simp only [opensThree, Bool.and_eq_true, decide_eq_true_eq, ← UInt8.toBitVec_inj, range,
    UInt8.le_iff_toNat_le, UInt8.reduceToNat]
  omega

theorem isContinuation_iff (byte : UInt8) :
    isContinuation byte = true ↔ ∃ a : BitVec 6, byte = continuation a := by
  have range : (∃ a : BitVec 6, byte.toBitVec = 0b10#2 ++ a) ↔ byte.toNat / 2 ^ 6 = 0b10 :=
    exists_append_iff 2 6 0b10#2 byte.toBitVec
  simp only [isContinuation, continuation, Bool.and_eq_true, decide_eq_true_eq,
    ← UInt8.toBitVec_inj, range, UInt8.le_iff_toNat_le, UInt8.reduceToNat]
  omega

theorem toNat_continuation (bits : BitVec 6) : (continuation bits).toNat = 0x80 + bits.toNat :=
  toNat_append 2 6 0b10#2 bits

theorem toNat_unit_one (a : BitVec 7) : (Group.one a).unit.toNat = a.toNat :=
  (toNat_append 9 7 0#9 a).trans (by simp)

theorem toNat_unit_two (a : BitVec 5) (b : BitVec 6) :
    (Group.two a b).unit.toNat = a.toNat * 64 + b.toNat :=
  (toNat_append 10 6 (0#5 ++ a) b).trans (by simp [toNat_append 5 5])

theorem toNat_unit_three (a : BitVec 4) (b c : BitVec 6) :
    (Group.three a b c).unit.toNat = (a.toNat * 64 + b.toNat) * 64 + c.toNat :=
  (toNat_append 10 6 (a ++ b) c).trans (by simp [toNat_append 4 6])

theorem unit_one (a : BitVec 7) : (⟨0#1 ++ a⟩ : UInt8).toUInt16 = (Group.one a).unit := by
  apply UInt16.toNat_inj.mp
  rw [UInt8.toNat_toUInt16, toNat_unit_one]
  exact (toNat_append 1 7 0#1 a).trans (by simp)

theorem unitOfTwo_bytes (a : BitVec 5) (b : BitVec 6) :
    unitOfTwo ⟨0b110#3 ++ a⟩ (continuation b) = (Group.two a b).unit := by
  have high := a.isLt
  have low := b.isLt
  have first : (⟨0b110#3 ++ a⟩ : UInt8).toNat = 0b110 * 2 ^ 5 + a.toNat := toNat_append 3 5 _ _
  apply UInt16.toNat_inj.mp
  rw [toNat_unit_two, unitOfTwo, UInt16.toNat_ofNat', first, toNat_continuation]
  omega

theorem unitOfThree_bytes (a : BitVec 4) (b c : BitVec 6) :
    unitOfThree ⟨0b1110#4 ++ a⟩ (continuation b) (continuation c) = (Group.three a b c).unit := by
  have high := a.isLt
  have middle := b.isLt
  have low := c.isLt
  have first : (⟨0b1110#4 ++ a⟩ : UInt8).toNat = 0b1110 * 2 ^ 4 + a.toNat := toNat_append 4 4 _ _
  apply UInt16.toNat_inj.mp
  rw [toNat_unit_three, unitOfThree, UInt16.toNat_ofNat', first, toNat_continuation, toNat_continuation]
  omega

/-- Every group is taken off the front as a whole. -/
theorem unitsFrom_group (done : List UInt16) (group : Group) (rest : List UInt8) :
    unitsFrom done (group.bytes ++ rest) = unitsFrom (group.unit :: done) rest := by
  cases group with
  | one a =>
    have ascii := (ascii_iff _).mpr ⟨a, rfl⟩
    rw [Group.bytes, List.cons_append, List.nil_append, unitsFrom.eq_def]
    simp only [if_pos ascii, unit_one]
  | two a b =>
    have notAscii : ¬(⟨0b110#3 ++ a⟩ : UInt8) < 0x80 := by
      revert a
      exact (by decide : ∀ a : BitVec 5, ¬(0b110#3 ++ a) < 0x80#8)
    have opens := (opensTwo_iff _).mpr ⟨a, rfl⟩
    have continues := (isContinuation_iff _).mpr ⟨b, rfl⟩
    rw [Group.bytes, List.cons_append, List.cons_append, List.nil_append, unitsFrom.eq_def]
    simp only [if_neg notAscii, opens, continues, Bool.and_self, if_true, unitOfTwo_bytes]
  | three a b c =>
    have notAscii : ¬(⟨0b1110#4 ++ a⟩ : UInt8) < 0x80 := by
      revert a
      exact (by decide : ∀ a : BitVec 4, ¬(0b1110#4 ++ a) < 0x80#8)
    have notTwo : opensTwo ⟨0b1110#4 ++ a⟩ = false := by
      revert a
      decide
    have opens := (opensThree_iff _).mpr ⟨a, rfl⟩
    have continues := (isContinuation_iff _).mpr ⟨b, rfl⟩
    have continues' := (isContinuation_iff _).mpr ⟨c, rfl⟩
    simp only [Group.bytes, List.cons_append, List.nil_append, unitsFrom, if_neg notAscii, notTwo,
      opens, continues, continues', Bool.and_self, Bool.false_and, Bool.false_eq_true, if_false,
      if_true, unitOfThree_bytes]

theorem unitsFrom_encode (done : List UInt16) (groups : List Group) :
    unitsFrom done (encode groups) = .ok (done.reverse ++ groups.map Group.unit) := by
  induction groups generalizing done with
  | nil => simp [encode, unitsFrom]
  | cons group groups ih =>
    rw [show encode (group :: groups) = group.bytes ++ encode groups from rfl, unitsFrom_group, ih]
    simp

theorem exists_groups (done : List UInt16) (bytes : List UInt8) (result : List UInt16)
    (read : unitsFrom done bytes = .ok result) : ∃ groups, bytes = encode groups := by
  fun_induction unitsFrom done bytes with
  | case1 done => exact ⟨[], rfl⟩
  | case2 done a rest ascii ih =>
    obtain ⟨x, rfl⟩ := (ascii_iff a).mp ascii
    obtain ⟨groups, rfl⟩ := ih read
    exact ⟨.one x :: groups, rfl⟩
  | case3 done a notAscii b rest opens ih =>
    obtain ⟨opens, continues⟩ := Bool.and_eq_true_iff.mp opens
    obtain ⟨x, rfl⟩ := (opensTwo_iff a).mp opens
    obtain ⟨y, rfl⟩ := (isContinuation_iff b).mp continues
    obtain ⟨groups, rfl⟩ := ih read
    exact ⟨.two x y :: groups, rfl⟩
  | case4 done a notAscii b notTwo c rest opens ih =>
    obtain ⟨opens, continues'⟩ := Bool.and_eq_true_iff.mp opens
    obtain ⟨opens, continues⟩ := Bool.and_eq_true_iff.mp opens
    obtain ⟨x, rfl⟩ := (opensThree_iff a).mp opens
    obtain ⟨y, rfl⟩ := (isContinuation_iff b).mp continues
    obtain ⟨z, rfl⟩ := (isContinuation_iff c).mp continues'
    obtain ⟨groups, rfl⟩ := ih read
    exact ⟨.three x y z :: groups, rfl⟩
  | case5 => cases read
  | case6 => cases read
  | case7 => cases read

theorem decodeUnits_eq_ok_iff (bytes : List UInt8) (result : String) :
    decodeUnits bytes = .ok result ↔ ∃ groups, bytes = encode groups ∧ result = text groups := by
  constructor
  · intro read
    cases found : units bytes with
    | error e => simp [decodeUnits, found, bind, Except.bind] at read
    | ok result' =>
      obtain ⟨groups, rfl⟩ := exists_groups [] bytes result' found
      rw [units, unitsFrom_encode] at found
      cases found
      refine ⟨groups, rfl, ?_⟩
      simpa [decodeUnits, units, unitsFrom_encode, bind, Except.bind, pure, Except.pure, text,
        eq_comm] using read
  · rintro ⟨groups, rfl, rfl⟩
    simp [decodeUnits, units, unitsFrom_encode, bind, Except.bind, pure, Except.pure, text]

section Ascii

variable {bytes : List UInt8}

theorem lossy_utf8_of_ascii (done : List Char) (ascii : ∀ byte ∈ bytes, byte < 0x80) :
    Text.Utf8.lossyFrom done 0 bytes =
      done.reverse ++ bytes.map fun byte => Char.ofNat byte.toNat := by
  induction bytes generalizing done with
  | nil => simp [Text.Utf8.lossyFrom]
  | cons byte bytes ih =>
    obtain ⟨first, others⟩ := List.forall_mem_cons.mp ascii
    simp [Text.Utf8.lossyFrom, Text.Utf8.next, first, ih _ others]

theorem unitsFrom_of_ascii (done : List UInt16) (ascii : ∀ byte ∈ bytes, byte < 0x80) :
    unitsFrom done bytes = .ok (done.reverse ++ bytes.map UInt8.toUInt16) := by
  induction bytes generalizing done with
  | nil => simp [unitsFrom]
  | cons byte bytes ih =>
    obtain ⟨first, others⟩ := List.forall_mem_cons.mp ascii
    rw [unitsFrom.eq_def]
    simp [first, ih _ others]

theorem unitsOf_ofNat_of_ascii {byte : UInt8} (ascii : byte < 0x80) :
    unitsOf (Char.ofNat byte.toNat) = [byte.toUInt16] := by
  have small : byte.toNat < 0x80 := ascii
  have value : (Char.ofNat byte.toNat).toNat = byte.toNat := Text.Utf16.toNat_ofNat (by omega)
  have short : byte.toNat < 0x10000 := by omega
  rw [unitsOf, value, if_pos short]
  simp

theorem decodeUnits_of_ascii (ascii : ∀ byte ∈ bytes, byte < 0x80) :
    decodeUnits bytes = .ok (String.ofList (Text.Utf8.lossy bytes)) := by
  have units : bytes.map UInt8.toUInt16 =
      (bytes.map fun byte => Char.ofNat byte.toNat).flatMap unitsOf := by
    rw [List.flatMap_map, List.map_eq_flatMap]
    apply List.flatMap_congr
    intro byte member
    exact (unitsOf_ofNat_of_ascii (ascii byte member)).symm
  have characters : Text.Utf8.lossy bytes = bytes.map fun byte => Char.ofNat byte.toNat :=
    lossy_utf8_of_ascii [] ascii
  have read : ModifiedUtf8.units bytes = .ok (bytes.map UInt8.toUInt16) :=
    unitsFrom_of_ascii [] ascii
  rw [decodeUnits, read, units, characters]
  simp only [bind, Except.bind, pure, Except.pure, Text.Utf16.lossy_flatMap_unitsOf]

theorem decode_of_ascii (ascii : ∀ byte ∈ bytes, byte < 0x80) :
    decode bytes = .ok (String.ofList (Text.Utf8.lossy bytes)) := by
  rw [decode, if_pos (by simpa using ascii)]

end Ascii

/-- Taking ASCII as it stands saves time and nothing else. -/
theorem decode_eq_decodeUnits (bytes : List UInt8) : decode bytes = decodeUnits bytes := by
  by_cases ascii : ∀ byte ∈ bytes, byte < 0x80
  · rw [decode_of_ascii ascii, decodeUnits_of_ascii ascii]
  · rw [decode, if_neg (by simpa using ascii)]

/-- Text is read exactly from sequences of groups. -/
theorem decode_eq_ok_iff (bytes : List UInt8) (result : String) :
    decode bytes = .ok result ↔ ∃ groups, bytes = encode groups ∧ result = text groups := by
  rw [decode_eq_decodeUnits, decodeUnits_eq_ok_iff]

end JarCensus.ClassFile.ModifiedUtf8
