import JarCensus.Text.Utf16
import Mathlib.Data.List.Chain

/-! What 16-bit units stand for. Units are those of characters, one or two each, and between them
unpaired surrogates; they are cut into these in one way, because a high unit before a low one is never
unpaired. Lossy reading keeps the characters and shows each unpaired surrogate as U+FFFD. -/
namespace JarCensus.Text.Utf16

/-- A character, or a surrogate without its partner. -/
inductive Piece where
  | character (c : Char)
  | unpaired (unit : UInt16) (surrogate : (isHigh unit || isLow unit) = true)

namespace Piece

def units : Piece → List UInt16
  | .character c => unitsOf c
  | .unpaired unit _ => [unit]

def shown : Piece → Char
  | .character c => c
  | .unpaired _ _ => Utf8.replacement

/-- A high and a low unit next to each other are not unpaired. -/
def Apart : Piece → Piece → Prop
  | .unpaired first _, .unpaired second _ => (isHigh first && isLow second) = false
  | _, _ => True

end Piece

/-- `text` is what `units` stand for, each unpaired surrogate shown as one U+FFFD. -/
def LossyReading (units : List UInt16) (text : List Char) : Prop :=
  ∃ pieces : List Piece, pieces.IsChain Piece.Apart ∧ units = pieces.flatMap Piece.units ∧
    text = pieces.map Piece.shown

theorem isHigh_iff (unit : UInt16) :
    isHigh unit = true ↔ 0xD800 ≤ unit.toNat ∧ unit.toNat ≤ 0xDBFF := by
  simp [isHigh, UInt16.le_iff_toNat_le]

theorem isLow_iff (unit : UInt16) :
    isLow unit = true ↔ 0xDC00 ≤ unit.toNat ∧ unit.toNat ≤ 0xDFFF := by
  simp [isLow, UInt16.le_iff_toNat_le]

section Characters

theorem valid_toNat (c : Char) : c.toNat < 0xD800 ∨ 0xDFFF < c.toNat ∧ c.toNat < 0x110000 :=
  c.valid

theorem toNat_ofNat {n : Nat} (valid : n < 0xD800 ∨ 0xDFFF < n ∧ n < 0x110000) :
    (Char.ofNat n).toNat = n := by
  rw [Char.ofNat, dif_pos valid]
  rfl

theorem toNat_pair {high low : UInt16} (isHigh : isHigh high = true) (isLow : isLow low = true) :
    (pair high low).toNat = 0x10000 + (high.toNat - 0xD800) * 0x400 + (low.toNat - 0xDC00) := by
  rw [isHigh_iff] at isHigh
  rw [isLow_iff] at isLow
  apply toNat_ofNat
  omega

theorem unitsOf_pair {high low : UInt16} (isHigh : isHigh high = true)
    (isLow : isLow low = true) : unitsOf (pair high low) = [high, low] := by
  have value := toNat_pair isHigh isLow
  rw [isHigh_iff] at isHigh
  rw [isLow_iff] at isLow
  have large : ¬(pair high low).toNat < 0x10000 := by omega
  rw [unitsOf, if_neg large, value, List.cons.injEq, List.cons.injEq]
  refine ⟨?_, ?_, rfl⟩
  all_goals
    apply UInt16.toNat_inj.mp
    rw [UInt16.toNat_ofNat']
    omega

/-- A character has one unit that is no surrogate, or a high and a low one. -/
theorem unitsOf_cases (c : Char) :
    (∃ unit, unitsOf c = [unit] ∧ (isHigh unit || isLow unit) = false ∧ unit.toNat = c.toNat) ∨
      ∃ high low, unitsOf c = [high, low] ∧ isHigh high = true ∧ isLow low = true ∧
        pair high low = c := by
  have valid := valid_toNat c
  by_cases small : c.toNat < 0x10000
  · refine .inl ⟨UInt16.ofNat c.toNat, if_pos small, ?_, ?_⟩
    · rw [← Bool.not_eq_true, Bool.or_eq_true, isHigh_iff, isLow_iff, UInt16.toNat_ofNat']
      omega
    · rw [UInt16.toNat_ofNat']
      omega
  · have high : isHigh (UInt16.ofNat (0xD800 + (c.toNat - 0x10000) / 0x400)) = true := by
      rw [isHigh_iff, UInt16.toNat_ofNat']
      omega
    have low : isLow (UInt16.ofNat (0xDC00 + (c.toNat - 0x10000) % 0x400)) = true := by
      rw [isLow_iff, UInt16.toNat_ofNat']
      omega
    refine .inr ⟨_, _, if_neg small, high, low, ?_⟩
    apply Char.toNat_inj.mp
    rw [toNat_pair high low, UInt16.toNat_ofNat', UInt16.toNat_ofNat']
    omega

end Characters

section Scan

variable (done : List Char)

theorem lossyFrom_cons {unit : UInt16} {rest : List UInt16}
    (apart : ∀ next ∈ rest.head?, (isHigh unit && isLow next) = false) :
    lossyFrom done (unit :: rest) = lossyFrom (single unit :: done) rest := by
  cases rest with
  | nil => simp [lossyFrom]
  | cons next rest =>
    have here := apart next rfl
    simp [lossyFrom, here]

theorem lossyFrom_unitsOf (c : Char) (rest : List UInt16) :
    lossyFrom done (unitsOf c ++ rest) = lossyFrom (c :: done) rest := by
  rcases unitsOf_cases c with ⟨unit, shape, plain, value⟩ | ⟨high, low, shape, isHigh, isLow, rfl⟩
  · have shown : single unit = c := by
      rw [single, if_neg (by simp [plain]), value, Char.ofNat_toNat]
    have apart : ∀ next ∈ rest.head?, (Utf16.isHigh unit && Utf16.isLow next) = false := by
      intro next _
      rw [(Bool.or_eq_false_iff.mp plain).1, Bool.false_and]
    rw [shape, List.singleton_append, lossyFrom_cons done apart, shown]
  · simp [shape, lossyFrom, isHigh, isLow]

theorem not_isLow_of_mem_head? (c : Char) : ∀ unit ∈ (unitsOf c).head?, isLow unit = false := by
  rcases unitsOf_cases c with ⟨unit, shape, plain, -⟩ | ⟨high, low, shape, isHigh, -, -⟩
  · simpa [shape] using (Bool.or_eq_false_iff.mp plain).2
  · rw [isHigh_iff] at isHigh
    simp only [shape, List.head?_cons, Option.mem_some_iff, forall_eq']
    rw [← Bool.not_eq_true, isLow_iff]
    omega

/-- What follows an unpaired high unit does not begin with a low one. -/
theorem not_paired_of_isChain {unit : UInt16} {surrogate : (isHigh unit || isLow unit) = true}
    {pieces : List Piece} (chain : (Piece.unpaired unit surrogate :: pieces).IsChain Piece.Apart) :
    ∀ next ∈ (pieces.flatMap Piece.units).head?, (isHigh unit && isLow next) = false := by
  intro next first
  cases pieces with
  | nil => simp at first
  | cons piece pieces =>
    have apart := (List.isChain_cons_cons.mp chain).1
    cases piece with
    | character c =>
      have inCharacter : next ∈ (unitsOf c).head? := by
        rcases unitsOf_cases c with ⟨unit, shape, -⟩ | ⟨high, low, shape, -⟩
        all_goals simpa [Piece.units, shape] using first
      rw [not_isLow_of_mem_head? c next inCharacter, Bool.and_false]
    | unpaired other _ =>
      obtain rfl : other = next := by simpa [Piece.units] using first
      exact apart

theorem lossyFrom_flatMap_units {pieces : List Piece} (chain : pieces.IsChain Piece.Apart) :
    lossyFrom done (pieces.flatMap Piece.units) = done.reverse ++ pieces.map Piece.shown := by
  induction pieces generalizing done with
  | nil => simp [lossyFrom]
  | cons piece pieces ih =>
    have later := ih (piece.shown :: done) chain.tail
    cases piece with
    | character c =>
      rw [List.flatMap_cons, Piece.units, lossyFrom_unitsOf]
      simpa [Piece.shown] using later
    | unpaired unit surrogate =>
      have shown : single unit = Utf8.replacement := if_pos surrogate
      rw [List.flatMap_cons, Piece.units, List.singleton_append,
        lossyFrom_cons done (not_paired_of_isChain chain), shown]
      simpa [Piece.shown] using later

end Scan

theorem exists_piece (unit : UInt16) : ∃ piece : Piece, piece.units = [unit] := by
  by_cases surrogate : (isHigh unit || isLow unit) = true
  · exact ⟨.unpaired unit surrogate, rfl⟩
  · have value : (Char.ofNat unit.toNat).toNat = unit.toNat := by
      rw [Bool.or_eq_true, isHigh_iff, isLow_iff] at surrogate
      have bound := unit.toNat_lt
      apply toNat_ofNat
      omega
    have small : unit.toNat < 0x10000 := unit.toNat_lt
    refine ⟨.character (Char.ofNat unit.toNat), ?_⟩
    rw [Piece.units, unitsOf, value, if_pos small, UInt16.ofNat_toNat]

theorem exists_pieces (units : List UInt16) :
    ∃ pieces : List Piece, pieces.IsChain Piece.Apart ∧ units = pieces.flatMap Piece.units := by
  match units with
  | [] => exact ⟨[], .nil, rfl⟩
  | [unit] =>
    obtain ⟨piece, shape⟩ := exists_piece unit
    exact ⟨[piece], .singleton piece, by simp [shape]⟩
  | first :: second :: rest =>
    cases paired : isHigh first && isLow second with
    | true =>
      obtain ⟨high, low⟩ := Bool.and_eq_true_iff.mp paired
      obtain ⟨pieces, chain, rfl⟩ := exists_pieces rest
      refine ⟨.character (pair first second) :: pieces, ?_, ?_⟩
      · exact List.isChain_cons.mpr ⟨fun _ _ => trivial, chain⟩
      · simp [Piece.units, unitsOf_pair high low]
    | false =>
      obtain ⟨piece, shape⟩ := exists_piece first
      obtain ⟨pieces, chain, later⟩ := exists_pieces (second :: rest)
      refine ⟨piece :: pieces, List.isChain_cons.mpr ⟨?_, chain⟩, by simp [shape, ← later]⟩
      intro next isNext
      obtain ⟨pieces, rfl⟩ := List.head?_eq_some_iff.mp isNext
      cases piece with
      | character c => trivial
      | unpaired unit _ =>
        cases next with
        | character c => trivial
        | unpaired unit' _ =>
          obtain rfl : unit = first := by simpa [Piece.units] using shape
          obtain ⟨rfl, -⟩ : second = unit' ∧ _ := by simpa [Piece.units] using later
          exact paired

/-- Lossy reading gives what the units stand for. -/
theorem lossy_eq_iff (units : List UInt16) (text : List Char) :
    lossy units = text ↔ LossyReading units text := by
  constructor
  · intro read
    obtain ⟨pieces, chain, rfl⟩ := exists_pieces units
    refine ⟨pieces, chain, rfl, ?_⟩
    rw [← read, lossy, lossyFrom_flatMap_units [] chain]
    simp
  · rintro ⟨pieces, chain, rfl, rfl⟩
    rw [lossy, lossyFrom_flatMap_units [] chain]
    simp

/-- Characters are read back from their units. -/
theorem lossy_flatMap_unitsOf (text : List Char) : lossy (text.flatMap unitsOf) = text := by
  apply (lossy_eq_iff _ _).mpr
  refine ⟨text.map .character, ?_, ?_, ?_⟩
  · rw [List.isChain_map]
    exact List.isChain_iff_getElem.mpr fun _ _ => trivial
  · simp [List.flatMap_map, Piece.units]
  · simp [Piece.shown, Function.comp_def]

end JarCensus.Text.Utf16
