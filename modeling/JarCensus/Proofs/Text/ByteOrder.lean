import JarCensus.Text.Utf8
import Mathlib.Algebra.Group.Nat.Defs

/-! Texts compare like the bytes that they are written as. A character is a first byte that tells how
many follow, and then its digits to base 64, so that of two characters the smaller one has the
smaller byte at the first place where they differ. -/
namespace JarCensus.Text.Utf8

/-- The last `n` digits of a number to base 64, each as a byte that continues a character. -/
def continuations : (n value : Nat) → List UInt8
  | 0, _ => []
  | n + 1, value => continuations n (value / 64) ++ [UInt8.ofNat (value % 64 + 0x80)]

/-- A first byte that is counted from `base` on, and `n` further digits. -/
def grouped (base n value : Nat) : List UInt8 :=
  UInt8.ofNat (value / 64 ^ n + base) :: continuations n value

theorem grouped_succ (base n value : Nat) :
    grouped base (n + 1) value =
      grouped base n (value / 64) ++ [UInt8.ofNat (value % 64 + 0x80)] := by
  rw [grouped, grouped, continuations, Nat.div_div_eq_div_mul, Nat.pow_succ', List.cons_append]

theorem cons_lt_cons_of_lt {m n : Nat} (less : m < n) (byte : n < 256) (xs ys : List UInt8) :
    UInt8.ofNat m :: xs < UInt8.ofNat n :: ys := by
  apply List.cons_lt_cons_iff.mpr
  refine .inl ?_
  rw [UInt8.lt_iff_toNat_lt, UInt8.toNat_ofNat', UInt8.toNat_ofNat']
  omega

/-- Groups of one length compare by their values, whatever follows them. -/
theorem grouped_lt_grouped (base n : Nat) {v w : Nat} (less : v < w)
    (fits : w / 64 ^ n + base < 256) (xs ys : List UInt8) :
    grouped base n v ++ xs < grouped base n w ++ ys := by
  induction n generalizing v w xs ys with
  | zero =>
    rw [Nat.pow_zero, Nat.div_one] at fits
    simp only [grouped, continuations, Nat.pow_zero, Nat.div_one, List.cons_append]
    exact cons_lt_cons_of_lt (by omega) fits _ _
  | succ n ih =>
    rw [grouped_succ, grouped_succ, List.append_assoc, List.append_assoc]
    have shorter : w / 64 / 64 ^ n + base < 256 := by
      rwa [Nat.div_div_eq_div_mul, ← Nat.pow_succ']
    by_cases same : v / 64 = w / 64
    · have digits : v % 64 < w % 64 := by omega
      rw [same]
      apply List.append_left_lt
      exact cons_lt_cons_of_lt (by omega) (by omega) _ _
    · exact ih (by omega) shorter _ _

/-- What the first byte of a character is counted from, and how many bytes follow it. -/
def shape (value : Nat) : Nat × Nat :=
  if value ≤ 0x7F then (0, 0)
  else if value ≤ 0x7FF then (0xC0, 1)
  else if value ≤ 0xFFFF then (0xE0, 2)
  else (0xF0, 3)

def firstByte (value : Nat) : Nat := value / 64 ^ (shape value).2 + (shape value).1

theorem shape_cases (value : Nat) :
    value ≤ 0x7F ∧ shape value = (0, 0) ∨
    (0x7F < value ∧ value ≤ 0x7FF) ∧ shape value = (0xC0, 1) ∨
    (0x7FF < value ∧ value ≤ 0xFFFF) ∧ shape value = (0xE0, 2) ∨
    0xFFFF < value ∧ shape value = (0xF0, 3) := by
  unfold shape
  split
  · exact .inl ⟨by omega, rfl⟩
  split
  · exact .inr (.inl ⟨by omega, rfl⟩)
  split
  · exact .inr (.inr (.inl ⟨by omega, rfl⟩))
  · exact .inr (.inr (.inr ⟨by omega, rfl⟩))

theorem firstByte_lt {value : Nat} (bound : value < 0x110000) : firstByte value < 256 := by
  rcases shape_cases value with ⟨range, shaped⟩ | ⟨range, shaped⟩ | ⟨range, shaped⟩ |
    ⟨range, shaped⟩
  all_goals
    simp only [firstByte, shaped]
    omega

/-- Longer characters have larger first bytes. -/
theorem firstByte_lt_firstByte {v w : Nat} (less : v < w) (longer : shape v ≠ shape w) :
    firstByte v < firstByte w := by
  rcases shape_cases v with ⟨range, first⟩ | ⟨range, first⟩ | ⟨range, first⟩ | ⟨range, first⟩ <;>
    rcases shape_cases w with ⟨range', second⟩ | ⟨range', second⟩ | ⟨range', second⟩ |
      ⟨range', second⟩
  all_goals simp only [firstByte, first, second, ne_eq, not_true_eq_false] at longer ⊢
  all_goals omega

theorem toNat_lt (c : Char) : c.toNat < 0x110000 := by
  have valid : c.toNat.isValidChar := c.valid
  unfold Nat.isValidChar at valid
  omega

theorem utf8EncodeChar_eq_grouped (c : Char) :
    String.utf8EncodeChar c = grouped (shape c.toNat).1 (shape c.toNat).2 c.toNat := by
  have bound := toNat_lt c
  by_cases one : c.toNat ≤ 0x7F
  · simp [String.utf8EncodeChar, shape, grouped, continuations, one]
  by_cases two : c.toNat ≤ 0x7FF
  · have lead : c.toNat / 64 % 32 = c.toNat / 64 := by omega
    simp [String.utf8EncodeChar, shape, grouped, continuations, one, two, lead]
  by_cases three : c.toNat ≤ 0xFFFF
  · have lead : c.toNat / 4096 % 16 = c.toNat / 4096 := by omega
    simp [String.utf8EncodeChar, shape, grouped, continuations, one, two, three, lead]
  · have lead : c.toNat / 262144 % 8 = c.toNat / 262144 := by omega
    simp [String.utf8EncodeChar, shape, grouped, continuations, one, two, three, lead,
      Nat.div_div_eq_div_mul]

theorem utf8EncodeChar_lt {c d : Char} (less : c < d) (xs ys : List UInt8) :
    String.utf8EncodeChar c ++ xs < String.utf8EncodeChar d ++ ys := by
  have values : c.toNat < d.toNat := less
  have byte : firstByte d.toNat < 256 := firstByte_lt (toNat_lt d)
  rw [utf8EncodeChar_eq_grouped, utf8EncodeChar_eq_grouped]
  by_cases same : shape c.toNat = shape d.toNat
  · rw [same]
    exact grouped_lt_grouped _ _ values byte xs ys
  · exact cons_lt_cons_of_lt (firstByte_lt_firstByte values same) byte _ _

theorem encode_cons (c : Char) (text : List Char) :
    encode (c :: text) = String.utf8EncodeChar c ++ encode text := List.flatMap_cons

theorem encode_lt_encode {s t : List Char} (less : s < t) : encode s < encode t := by
  induction less with
  | nil =>
    rename_i c text
    obtain ⟨byte, rest, encoded⟩ := List.exists_cons_of_ne_nil
      (String.utf8EncodeChar_ne_nil (c := c))
    rw [encode_cons, encoded]
    exact List.nil_lt_cons byte _
  | rel smaller =>
    rw [encode_cons, encode_cons]
    exact utf8EncodeChar_lt smaller _ _
  | cons _ ih =>
    rw [encode_cons, encode_cons]
    exact List.append_left_lt ih

theorem encode_lt_encode_iff {s t : List Char} : encode s < encode t ↔ s < t := by
  refine ⟨fun less => ?_, encode_lt_encode⟩
  rcases Std.lt_trichotomy s t with smaller | same | larger
  · exact smaller
  · rw [same] at less
    exact absurd less (List.lt_irrefl _)
  · exact absurd less (List.lt_asymm (encode_lt_encode larger))

/-- Characters compare by their code points. -/
theorem map_toNat_lt_iff (s t : List Char) : s.map Char.toNat < t.map Char.toNat ↔ s < t := by
  induction s generalizing t with
  | nil => cases t <;> simp
  | cons c s ih =>
    cases t with
    | nil => simp
    | cons d t =>
      rw [List.map_cons, List.map_cons, List.cons_lt_cons_iff, List.cons_lt_cons_iff, ih,
        Char.toNat_inj]
      rfl

end JarCensus.Text.Utf8
