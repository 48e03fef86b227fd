import JarCensus.ClassFile.Reader
import Mathlib.Algebra.Group.Int.Defs
import Mathlib.Algebra.Group.Nat.Defs

/-! Runs on machine words. Every sum, difference and product that may leave its word and every index
and slice that may leave its bytes is looked at, and stops the run if it does. `Matches` relates a
run on words to one on numbers: it does not stop for such a reason, gives what the other gives, and
where it reports missing bytes there is one at least. -/
namespace JarCensus.ClassFile.Checked

/-- Why a run on words ends without a result. -/
inductive Stop where
  | refused (error : FormatError)
  /-- A sum, difference or product does not fit its word. -/
  | overflow
  /-- An index or a slice lies outside of its bytes. -/
  | outside
  /-- A loop has taken all the turns it was given. -/
  | endless
  deriving DecidableEq, Repr

section Arithmetic

variable {w : Nat}

/-- A result that counts only if its word holds it. -/
def guarded (overflows : Bool) (result : BitVec w) : Except Stop (BitVec w) :=
  if overflows then .error .overflow else .ok result

def add (a b : BitVec w) : Except Stop (BitVec w) := guarded (a.uaddOverflow b) (a + b)

def sub (a b : BitVec w) : Except Stop (BitVec w) := guarded (a.usubOverflow b) (a - b)

def mul (a b : BitVec w) : Except Stop (BitVec w) := guarded (a.umulOverflow b) (a * b)

/-- The sum of two words read as signed. -/
def addInt (a b : BitVec w) : Except Stop (BitVec w) := guarded (a.saddOverflow b) (a + b)

/-- The difference of two words read as signed. -/
def subInt (a b : BitVec w) : Except Stop (BitVec w) := guarded (a.ssubOverflow b) (a - b)

variable {a b : BitVec w}

theorem exists_add (fits : a.toNat + b.toNat < 2 ^ w) :
    ∃ sum, add a b = .ok sum ∧ sum.toNat = a.toNat + b.toNat := by
  have inside : ¬a.uaddOverflow b := by
    simp only [BitVec.uaddOverflow, decide_eq_true_eq]
    omega
  exact ⟨a + b, if_neg inside, BitVec.toNat_add_of_not_uaddOverflow inside⟩

theorem add_eq_overflow (large : 2 ^ w ≤ a.toNat + b.toNat) : add a b = .error .overflow :=
  if_pos (decide_eq_true large)

theorem exists_sub (fits : b.toNat ≤ a.toNat) :
    ∃ difference, sub a b = .ok difference ∧ difference.toNat = a.toNat - b.toNat := by
  have inside : ¬a.usubOverflow b := by
    simp only [BitVec.usubOverflow, decide_eq_true_eq]
    omega
  exact ⟨a - b, if_neg inside, BitVec.toNat_sub_of_not_usubOverflow inside⟩

theorem exists_mul (fits : a.toNat * b.toNat < 2 ^ w) :
    ∃ product, mul a b = .ok product ∧ product.toNat = a.toNat * b.toNat := by
  have inside : ¬a.umulOverflow b := by
    simp only [BitVec.umulOverflow, decide_eq_true_eq]
    omega
  exact ⟨a * b, if_neg inside, BitVec.toNat_mul_of_not_umulOverflow inside⟩

theorem exists_addInt (low : -2 ^ (w - 1) ≤ a.toInt + b.toInt)
    (high : a.toInt + b.toInt < 2 ^ (w - 1)) :
    ∃ sum, addInt a b = .ok sum ∧ sum.toInt = a.toInt + b.toInt := by
  have inside : ¬a.saddOverflow b := by
    simp only [BitVec.saddOverflow, Bool.or_eq_true, decide_eq_true_eq]
    omega
  exact ⟨a + b, if_neg inside, BitVec.toInt_add_of_not_saddOverflow inside⟩

theorem exists_subInt (low : -2 ^ (w - 1) ≤ a.toInt - b.toInt)
    (high : a.toInt - b.toInt < 2 ^ (w - 1)) :
    ∃ difference, subInt a b = .ok difference ∧ difference.toInt = a.toInt - b.toInt := by
  have inside : ¬a.ssubOverflow b := by
    simp only [BitVec.ssubOverflow, Bool.or_eq_true, decide_eq_true_eq]
    omega
  exact ⟨a - b, if_neg inside, BitVec.toInt_sub_of_not_ssubOverflow inside⟩

end Arithmetic

/-- A length field as a length of data. -/
def widen {w : Nat} (word : BitVec w) : BitVec 64 := word.setWidth 64

theorem toNat_widen {w : Nat} (word : BitVec w) (narrow : w ≤ 64) :
    (widen word).toNat = word.toNat := by
  rw [widen, BitVec.toNat_setWidth_of_le narrow]

/-- How many bytes there are. -/
def size (data : List UInt8) : BitVec 64 := BitVec.ofNat 64 data.length

/-- The byte at an offset. -/
def byteAt (data : List UInt8) (offset : BitVec 64) : Except Stop UInt8 :=
  match data[offset.toNat]? with
  | some byte => .ok byte
  | none => .error .outside

/-- The bytes from one offset up to another. -/
def slice (data : List UInt8) (start stop : BitVec 64) : Except Stop (List UInt8) :=
  if start ≤ stop ∧ stop ≤ size data then
    .ok ((data.drop start.toNat).take (stop - start).toNat)
  else .error .outside

/-- The 32-bit word of the first four bytes. -/
def wordAt (part : List UInt8) : Except Stop UInt32 := do
  return word32 (← byteAt part 0) (← byteAt part 1) (← byteAt part 2) (← byteAt part 3)

/-- The data is short enough for its offsets to be 64-bit words with room to spare. -/
def Addressable (data : List UInt8) : Prop := data.length < 2 ^ 63

section Bytes

variable {data : List UInt8}

theorem toNat_size (short : Addressable data) : (size data).toNat = data.length := by
  rw [Addressable] at short
  rw [size, BitVec.toNat_ofNat, Nat.mod_eq_of_lt (by omega)]

/-- An offset is before the end exactly if bytes follow it. -/
theorem lt_size_of_cons (short : Addressable data) {offset : BitVec 64} {byte : UInt8}
    {rest : List UInt8} (here : data.drop offset.toNat = byte :: rest) : offset < size data := by
  have length := congrArg List.length here
  rw [List.length_drop, List.length_cons] at length
  rw [BitVec.lt_def, toNat_size short]
  omega

theorem not_lt_size_of_nil (short : Addressable data) {offset : BitVec 64}
    (here : data.drop offset.toNat = []) : ¬offset < size data := by
  rw [BitVec.lt_def, toNat_size short, Nat.not_lt]
  exact List.drop_eq_nil_iff.mp here

/-- Moving on past bytes that are there leads to those that follow them. -/
theorem exists_past (short : Addressable data) {offset n : BitVec 64} (front rest : List UInt8)
    (here : data.drop offset.toNat = front ++ rest) (width : front.length = n.toNat)
    (moves : front ≠ []) :
    ∃ next, add offset n = .ok next ∧ next.toNat = offset.toNat + front.length ∧
      next.toNat ≤ data.length ∧ data.drop next.toNat = rest := by
  have length := congrArg List.length here
  rw [List.length_drop, List.length_append] at length
  have positive := List.length_pos_iff.mpr moves
  rw [Addressable] at short
  obtain ⟨next, ran, place⟩ := exists_add (a := offset) (b := n) (by omega)
  refine ⟨next, ran, by omega, by omega, ?_⟩
  rw [place, ← width, ← List.drop_drop, here, List.drop_left]

theorem byteAt_eq_ok {offset : BitVec 64} {byte : UInt8} {rest : List UInt8}
    (here : data.drop offset.toNat = byte :: rest) : byteAt data offset = .ok byte := by
  have found : data[offset.toNat]? = some byte := by
    rw [← List.head?_drop, here, List.head?_cons]
  rw [byteAt, found]

theorem slice_eq_ok (short : Addressable data) {start stop : BitVec 64}
    (forward : start.toNat ≤ stop.toNat) (inside : stop.toNat ≤ data.length) :
    slice data start stop = .ok ((data.drop start.toNat).take (stop.toNat - start.toNat)) := by
  have size := toNat_size short
  have within : start ≤ stop ∧ stop ≤ Checked.size data := by
    rw [BitVec.le_def, BitVec.le_def, size]
    exact ⟨forward, inside⟩
  rw [slice, if_pos within, BitVec.toNat_sub_of_le within.1]

theorem slice_eq_outside (short : Addressable data) {start stop : BitVec 64}
    (past : data.length < stop.toNat) : slice data start stop = .error .outside := by
  have size := toNat_size short
  apply if_neg
  rw [BitVec.le_def, BitVec.le_def, size]
  omega

end Bytes

/-- Missing bytes are one at least. -/
def LacksSome : FormatError → Prop
  | .truncated _ needed => 1 ≤ needed
  | _ => True

/-- A run on words ends like one on numbers: with a related result, or with the same refusal. -/
inductive Matches {α β : Type} (related : α → β → Prop) :
    Except Stop α → Except FormatError β → Prop where
  | ok {a : α} {b : β} (same : related a b) : Matches related (.ok a) (.ok b)
  | refused {e : FormatError} (lacks : LacksSome e) :
    Matches related (.error (.refused e)) (.error e)

namespace Matches

variable {α β γ δ : Type} {related : α → β → Prop} {related' : γ → δ → Prop}

theorem bind {words : Except Stop α} {numbers : Except FormatError β} {next : α → Except Stop γ}
    {next' : β → Except FormatError δ} (first : Matches related words numbers)
    (second : ∀ a b, related a b → Matches related' (next a) (next' b)) :
    Matches related' (words >>= next) (numbers >>= next') := by
  cases first with
  | ok same => exact second _ _ same
  | refused lacks => exact .refused lacks

/-- What is known of related results, and where the second one comes from. -/
theorem ran {words : Except Stop α} {numbers : Except FormatError β}
    (run : Matches related words numbers) :
    Matches (fun a b => related a b ∧ numbers = .ok b) words numbers := by
  cases run with
  | ok same => exact .ok ⟨same, rfl⟩
  | refused lacks => exact .refused lacks

/-- A step on words only, which does not stop. -/
theorem given {step : Except Stop α} {a : α} {next : α → Except Stop γ}
    {numbers : Except FormatError δ} (ran : step = .ok a)
    (rest : Matches related' (next a) numbers) : Matches related' (step >>= next) numbers := by
  rw [ran]
  exact rest

theorem map {words : Except Stop α} {numbers : Except FormatError β} {f : α → γ} {g : β → δ}
    (run : Matches related words numbers) (keep : ∀ a b, related a b → related' (f a) (g b)) :
    Matches related' (words.map f) (numbers.map g) := by
  cases run with
  | ok same => exact .ok (keep _ _ same)
  | refused lacks => exact .refused lacks

/-- What agreement on results says of the two runs. -/
theorem eq_mapError {words : Except Stop α} {numbers : Except FormatError α}
    (run : Matches Eq words numbers) : words = numbers.mapError .refused := by
  cases run with
  | ok same =>
    rw [same]
    rfl
  | refused _ => rfl

theorem exists_ok {a : α} {numbers : Except FormatError β}
    (run : Matches related (.ok a) numbers) : ∃ b, numbers = .ok b ∧ related a b := by
  cases run with
  | ok same => exact ⟨_, rfl, same⟩

/-- A run that matches one on numbers stops by a refusal only. -/
theorem exists_refused {stop : Stop} {numbers : Except FormatError β}
    (run : Matches related (.error stop) numbers) : ∃ e, stop = .refused e := by
  cases run with
  | refused _ => exact ⟨_, rfl⟩

theorem lacksSome {words : Except Stop α} {e : FormatError}
    (run : Matches related words (.error e)) : LacksSome e := by
  cases run with
  | refused lacks => exact lacks

end Matches

end JarCensus.ClassFile.Checked
