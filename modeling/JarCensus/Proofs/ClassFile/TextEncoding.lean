import JarCensus.Proofs.ClassFile.ModifiedUtf8
import JarCensus.Proofs.Results
import JarCensus.Proofs.Text.Utf16

/-! Reading and writing the text of constants. Every text can be written, NUL with two bytes and a
character past U+FFFF as its two surrogates with three bytes each, and is read back; bytes that are no
sequence of groups are refused; ASCII is read like UTF-8. -/
namespace JarCensus.ClassFile.ModifiedUtf8

open Text.Utf16 (LossyReading unitsOf)

/-- The shortest group that holds a unit, two bytes for NUL. -/
def Group.ofUnit (unit : UInt16) : Group :=
  if 0 < unit ∧ unit < 0x80 then .one (unit.toBitVec.setWidth 7)
  else if unit < 0x800 then .two (unit.toBitVec.extractLsb' 6 5) (unit.toBitVec.setWidth 6)
  else .three (unit.toBitVec.extractLsb' 12 4) (unit.toBitVec.extractLsb' 6 6)
    (unit.toBitVec.setWidth 6)

/-- The bytes of a text. -/
def encodeText (text : String) : List UInt8 :=
  encode ((text.toList.flatMap unitsOf).map Group.ofUnit)

theorem unit_ofUnit (unit : UInt16) : (Group.ofUnit unit).unit = unit := by
  have bound := unit.toNat_lt
  apply UInt16.toNat_inj.mp
  unfold Group.ofUnit
  split
  next one =>
    have small : unit.toNat < 0x80 := one.2
    rw [toNat_unit_one, BitVec.toNat_setWidth, UInt16.toNat_toBitVec]
    omega
  next =>
    split
    next two =>
      have small : unit.toNat < 0x800 := two
      rw [toNat_unit_two, BitVec.extractLsb'_toNat, BitVec.toNat_setWidth, UInt16.toNat_toBitVec,
        Nat.shiftRight_eq_div_pow]
      omega
    next =>
      rw [toNat_unit_three, BitVec.extractLsb'_toNat, BitVec.extractLsb'_toNat,
        BitVec.toNat_setWidth, UInt16.toNat_toBitVec, Nat.shiftRight_eq_div_pow,
        Nat.shiftRight_eq_div_pow]
      omega

theorem map_unit_map_ofUnit (units : List UInt16) :
    (units.map Group.ofUnit).map Group.unit = units := by
  simp [Function.comp_def, unit_ofUnit]

theorem decode_encodeText (text : String) : decode (encodeText text) = .ok text := by
  apply (decode_eq_ok_iff _ _).mpr
  refine ⟨_, rfl, ?_⟩
  rw [ModifiedUtf8.text, map_unit_map_ofUnit, Text.Utf16.lossy_flatMap_unitsOf,
    String.ofList_toList]

example : encodeText "\x00😀" = [0xC0, 0x80, 0xED, 0xA0, 0xBD, 0xED, 0xB8, 0x80] := by decide

theorem error_of_unitsFrom {done : List UInt16} {bytes : List UInt8} {error : FormatError}
    (read : unitsFrom done bytes = .error error) : error = .badText := by
  fun_induction unitsFrom done bytes with
  | case1 => cases read
  | case2 done a rest ascii ih => exact ih read
  | case3 done a notAscii b rest opens ih => exact ih read
  | case4 done a notAscii b notTwo c rest opens ih => exact ih read
  | case5 | case6 | case7 =>
    cases read
    rfl

theorem decode_eq_error_iff (bytes : List UInt8) (error : FormatError) :
    decode bytes = .error error ↔ error = .badText ∧ ¬∃ groups, bytes = encode groups := by
  have only : ∀ e, decode bytes = .error e → e = .badText := by
    intro e failed
    rw [decode_eq_decodeUnits] at failed
    rcases (bind_eq_error_iff _ _ _).mp failed with read | ⟨units, -, shown⟩
    · exact error_of_unitsFrom read
    · cases shown
  constructor
  · intro failed
    refine ⟨only error failed, ?_⟩
    intro grouped
    obtain ⟨groups, shape⟩ := grouped
    have read := (decode_eq_ok_iff bytes (text groups)).mpr ⟨groups, shape, rfl⟩
    rw [failed] at read
    cases read
  · intro refused
    obtain ⟨malformed, ungrouped⟩ := refused
    cases read : decode bytes with
    | ok text =>
      obtain ⟨groups, shape, -⟩ := (decode_eq_ok_iff bytes text).mp read
      exact absurd ⟨groups, shape⟩ ungrouped
    | error e => rw [only e read, malformed]

/-- Text is read exactly from sequences of groups, as what their units stand for, and anything else
is refused. On ASCII this is what UTF-8 gives, and every text is read back from its bytes. -/
theorem decode_reads_exactly_groups :
    (∀ bytes text, decode bytes = .ok text ↔
      ∃ groups, bytes = encode groups ∧ LossyReading (groups.map Group.unit) text.toList) ∧
    (∀ bytes error, decode bytes = .error error ↔
      error = .badText ∧ ¬∃ groups, bytes = encode groups) ∧
    (∀ bytes, (∀ byte ∈ bytes, byte < 0x80) →
      decode bytes = .ok (String.ofList (Text.Utf8.lossy bytes)) ∧
      decodeUnits bytes = .ok (String.ofList (Text.Utf8.lossy bytes))) ∧
    ∀ text, decode (encodeText text) = .ok text := by
  refine ⟨?_, decode_eq_error_iff, ?_, decode_encodeText⟩
  · intro bytes text
    rw [decode_eq_ok_iff]
    apply exists_congr
    intro groups
    apply and_congr_right
    intro _
    rw [← Text.Utf16.lossy_eq_iff, ModifiedUtf8.text, ← String.toList_inj, String.toList_ofList]
    exact eq_comm
  · intro bytes ascii
    exact ⟨decode_of_ascii ascii, decodeUnits_of_ascii ascii⟩

end JarCensus.ClassFile.ModifiedUtf8
