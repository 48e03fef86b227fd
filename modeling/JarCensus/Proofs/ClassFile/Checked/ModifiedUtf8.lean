import JarCensus.Proofs.ClassFile.Checked.Reader
import JarCensus.Proofs.ClassFile.TextEncoding

/-! The text of constants by index. Each turn looks at the group at an offset and moves on past it,
so the loop ends after one turn for each byte at the latest, and no offset is more than three past
the last byte. -/
namespace JarCensus.ClassFile

namespace ModifiedUtf8

open Text.Utf8 (isContinuation)

variable {a b c : UInt8} {rest : List UInt8} (done : List UInt16)

theorem unitsFrom_of_ascii_cons (ascii : a < 0x80) (rest : List UInt8) :
    unitsFrom done (a :: rest) = unitsFrom (a.toUInt16 :: done) rest := by
  rw [unitsFrom.eq_def]
  simp only [if_pos ascii]

theorem unitsFrom_of_opensTwo (long : ¬a < 0x80) (two : opensTwo a) (second : isContinuation b) :
    unitsFrom done (a :: b :: rest) = unitsFrom (unitOfTwo a b :: done) rest := by
  rw [unitsFrom.eq_def]
  simp only [if_neg long, two, second, Bool.and_self, if_true]

theorem unitsFrom_of_opensThree (long : ¬a < 0x80) (two : ¬opensTwo a) (three : opensThree a)
    (second : isContinuation b) (third : isContinuation c) :
    unitsFrom done (a :: b :: c :: rest) = unitsFrom (unitOfThree a b c :: done) rest := by
  rw [unitsFrom.eq_def]
  simp [long, two, three, second, third]

/-- Nothing but ASCII stands without a second byte. -/
theorem unitsFrom_of_no_second (long : ¬a < 0x80)
    (without : ∀ b tail, rest = b :: tail → ¬isContinuation b) :
    unitsFrom done (a :: rest) = .error .badText := by
  rw [unitsFrom.eq_def]
  cases rest with
  | nil => simp [long]
  | cons b rest =>
    have broken := without b rest rfl
    cases rest <;> simp [long, broken]

/-- A group of three does not stand without its third byte. -/
theorem unitsFrom_of_no_third (long : ¬a < 0x80) (two : ¬opensTwo a)
    (without : ∀ c tail, rest = c :: tail → ¬isContinuation c) :
    unitsFrom done (a :: b :: rest) = .error .badText := by
  rw [unitsFrom.eq_def]
  cases rest with
  | nil => simp [long, two]
  | cons c rest => simp [long, two, without c rest rfl]

theorem unitsFrom_of_opens_none (long : ¬a < 0x80) (two : ¬opensTwo a) (three : ¬opensThree a) :
    unitsFrom done (a :: rest) = .error .badText := by
  rw [unitsFrom.eq_def]
  rcases rest with _ | ⟨b, _ | ⟨c, rest⟩⟩
  · simp [long]
  · simp [long, two]
  · simp [long, two, three]

end ModifiedUtf8

namespace Checked

open ModifiedUtf8 (opensTwo opensThree unitOfTwo unitOfThree)
open Text.Utf8 (isContinuation)

/-- The byte at an offset, if it is there and continues a group. -/
def continuation (bytes : List UInt8) (offset : BitVec 64) : Except Stop UInt8 :=
  match bytes[offset.toNat]? with
  | some byte => if isContinuation byte then .ok byte else .error (.refused .badText)
  | none => .error (.refused .badText)

/-- Reads groups from `offset` on, onto `done`. -/
def unitsFrom (bytes : List UInt8) :
    (turns : Nat) → (offset : BitVec 64) → (done : List UInt16) → Except Stop (List UInt16)
  | 0, _, _ => .error .endless
  | turns + 1, offset, done =>
    if offset < size bytes then do
      let a ← byteAt bytes offset
      if a < 0x80 then
        let next ← add offset 1
        unitsFrom bytes turns next (a.toUInt16 :: done)
      else if opensTwo a then
        let b ← continuation bytes (← add offset 1)
        let next ← add offset 2
        unitsFrom bytes turns next (unitOfTwo a b :: done)
      else if opensThree a then
        let b ← continuation bytes (← add offset 1)
        let c ← continuation bytes (← add offset 2)
        let next ← add offset 3
        unitsFrom bytes turns next (unitOfThree a b c :: done)
      else .error (.refused .badText)
    else .ok done.reverse

/-- ASCII is taken as it stands; other text goes through its 16-bit units. -/
def decodeText (bytes : List UInt8) : Except Stop String :=
  if bytes.all (· < 0x80) then .ok (String.ofList (Text.Utf8.lossy bytes))
  else do
    let units ← unitsFrom bytes (bytes.length + 1) 0 []
    return String.ofList (Text.Utf16.lossy units)

variable {bytes rest : List UInt8} {offset : BitVec 64}

/-- A continuation byte is there, or the text is refused. -/
theorem Matches.continuation {α β : Type} {related : α → β → Prop} {next : UInt8 → Except Stop α}
    {numbers : Except FormatError β} (here : bytes.drop offset.toNat = rest)
    (continues : ∀ b tail, rest = b :: tail → isContinuation b → Matches related (next b) numbers)
    (broken : (∀ b tail, rest = b :: tail → ¬isContinuation b) → numbers = .error .badText) :
    Matches related (continuation bytes offset >>= next) numbers := by
  have first : bytes[offset.toNat]? = rest.head? := by
    rw [← List.head?_drop, here]
  cases rest with
  | nil =>
    rw [Checked.continuation, first, broken (by simp)]
    exact .refused trivial
  | cons b rest =>
    rw [Checked.continuation, first]
    by_cases second : isContinuation b
    · simp only [List.head?_cons, if_pos second]
      exact continues b rest rfl second
    · rw [broken (by simp [second])]
      simp only [List.head?_cons, if_neg second]
      exact .refused trivial

/-- What the loop does at the end of the bytes and at a group; `go` says that the turns left are
enough for what is left of the bytes. -/
theorem unitsFrom_matches (short : Addressable bytes) (turns : Nat) (offset : BitVec 64)
    (done : List UInt16) (inside : offset.toNat ≤ bytes.length)
    (enough : bytes.length < offset.toNat + turns) :
    Matches Eq (unitsFrom bytes turns offset done)
      (ModifiedUtf8.unitsFrom done (bytes.drop offset.toNat)) := by
  induction turns generalizing offset done with
  | zero => omega
  | succ turns ih =>
    have go : ∀ front rest (n : BitVec 64) (unit : UInt16),
        bytes.drop offset.toNat = front ++ rest → front.length = n.toNat → front ≠ [] →
          Matches Eq (do let next ← add offset n; unitsFrom bytes turns next (unit :: done))
            (ModifiedUtf8.unitsFrom (unit :: done) rest) := by
      intro front rest n unit here width moves
      obtain ⟨next, ran, place, within, past⟩ := exists_past short front rest here width moves
      have positive := List.length_pos_iff.mpr moves
      apply Matches.given ran
      rw [← past]
      exact ih next (unit :: done) within (by omega)
    rw [unitsFrom]
    cases left : bytes.drop offset.toNat with
    | nil =>
      rw [if_neg (not_lt_size_of_nil short left)]
      exact .ok rfl
    | cons a rest =>
      rw [if_pos (lt_size_of_cons short left)]
      apply Matches.given (byteAt_eq_ok left)
      by_cases ascii : a < 0x80
      · rw [if_pos ascii, ModifiedUtf8.unitsFrom_of_ascii_cons done ascii]
        exact go [a] rest 1 _ left rfl (List.cons_ne_nil _ _)
      obtain ⟨second, ranSecond, -, -, atSecond⟩ :=
        exists_past short [a] rest left (n := 1) rfl (List.cons_ne_nil _ _)
      rw [if_neg ascii]
      by_cases two : opensTwo a
      · rw [if_pos two]
        apply Matches.given ranSecond
        apply Matches.continuation atSecond
        · rintro b tail rfl isSecond
          rw [ModifiedUtf8.unitsFrom_of_opensTwo done ascii two isSecond]
          exact go [a, b] tail 2 _ left rfl (List.cons_ne_nil _ _)
        · exact ModifiedUtf8.unitsFrom_of_no_second done ascii
      rw [if_neg two]
      by_cases three : opensThree a
      · rw [if_pos three]
        apply Matches.given ranSecond
        apply Matches.continuation atSecond
        · rintro b tail rfl isSecond
          obtain ⟨third, ranThird, -, -, atThird⟩ :=
            exists_past short [a, b] tail left (n := 2) rfl (List.cons_ne_nil _ _)
          apply Matches.given ranThird
          apply Matches.continuation atThird
          · rintro c tail rfl isThird
            rw [ModifiedUtf8.unitsFrom_of_opensThree done ascii two three isSecond isThird]
            exact go [a, b, c] tail 3 _ left rfl (List.cons_ne_nil _ _)
          · exact ModifiedUtf8.unitsFrom_of_no_third done ascii two
        · exact ModifiedUtf8.unitsFrom_of_no_second done ascii
      rw [if_neg three, ModifiedUtf8.unitsFrom_of_opens_none done ascii two three]
      exact .refused trivial

theorem decodeText_matches (short : Addressable bytes) :
    Matches Eq (decodeText bytes) (ModifiedUtf8.decode bytes) := by
  rw [decodeText]
  by_cases ascii : bytes.all (· < 0x80)
  · rw [if_pos ascii, ModifiedUtf8.decode, if_pos ascii]
    exact .ok rfl
  · rw [if_neg ascii, ModifiedUtf8.decode, if_neg ascii]
    have read := unitsFrom_matches short (bytes.length + 1) 0 [] (Nat.zero_le _)
      (Nat.lt_of_lt_of_le (Nat.lt_succ_self _) (Nat.le_add_left _ _))
    apply read.bind
    rintro units _ rfl
    exact .ok rfl

end Checked

end JarCensus.ClassFile
