import JarCensus.Text.Utf8
import JarCensus.Proofs.Text.Utf16
import Mathlib.Algebra.Group.Nat.Defs

/-! ASCII text in bytes that need not be UTF-8. Lossy reading gives every ASCII byte its own
character, and shows every other stretch of bytes, malformed or not, as a character that is not ASCII.
ASCII words are therefore found in what is read exactly if they are found in the bytes. -/
namespace JarCensus.Text.Utf8

/-- The character of an ASCII byte. -/
def asciiChar (byte : UInt8) : Char := Char.ofNat byte.toNat

/-- `text` shows `bytes`: ASCII bytes one by one, stretches of other bytes as other characters. -/
inductive Shows : List UInt8 → List Char → Prop
  | nil : Shows [] []
  | ascii {byte : UInt8} {rest : List UInt8} {text : List Char} (plain : byte < 0x80)
    (shows : Shows rest text) : Shows (byte :: rest) (asciiChar byte :: text)
  | other {first : UInt8} {stretch rest : List UInt8} {c : Char} {text : List Char}
    (high : ∀ byte ∈ first :: stretch, ¬byte < 0x80) (foreign : 0x80 ≤ c.toNat)
    (shows : Shows rest text) : Shows (first :: (stretch ++ rest)) (c :: text)

theorem toNat_asciiChar {byte : UInt8} (plain : byte < 0x80) :
    (asciiChar byte).toNat = byte.toNat := by
  have small : byte.toNat < 0x80 := UInt8.lt_iff_toNat_lt.mp plain
  exact Utf16.toNat_ofNat (.inl (by omega))

theorem asciiChar_inj {byte other : UInt8} (plain : byte < 0x80) (plain' : other < 0x80) :
    asciiChar byte = asciiChar other ↔ byte = other := by
  constructor
  · intro same
    have values := congrArg Char.toNat same
    rw [toNat_asciiChar plain, toNat_asciiChar plain'] at values
    exact UInt8.toNat_inj.mp values
  · rintro rfl
    rfl

theorem asciiChar_ne {byte : UInt8} {c : Char} (plain : byte < 0x80) (foreign : 0x80 ≤ c.toNat) :
    asciiChar byte ≠ c := by
  rintro rfl
  rw [toNat_asciiChar plain] at foreign
  exact absurd (UInt8.lt_iff_toNat_lt.mp plain) (Nat.not_lt.mpr foreign)

/-- The bytes that are read to continue a character are not ASCII, and add their digits to it. -/
theorem continued_spec (missing value used : Nat) (bytes : List UInt8) :
    (∃ stretch rest, bytes = stretch ++ rest ∧ (∀ byte ∈ stretch, ¬byte < 0x80) ∧
      (continued missing value used bytes).2 = used + stretch.length) ∧
    ∀ c, (continued missing value used bytes).1 = some c →
      ∃ n, c = Char.ofNat n ∧ value * 64 ^ missing ≤ n ∧ n < (value + 1) * 64 ^ missing := by
  fun_induction continued missing value used bytes with
  | case1 value used bytes =>
    refine ⟨⟨[], bytes, rfl, nofun, rfl⟩, ?_⟩
    rintro c ⟨⟩
    exact ⟨value, rfl, by simp, by simp⟩
  | case2 missing value used byte rest continues ih =>
    obtain ⟨⟨stretch, rest, rfl, high, length⟩, digits⟩ := ih
    have first : ¬byte < 0x80 := by
      simp only [isContinuation, Bool.and_eq_true, decide_eq_true_eq] at continues
      exact UInt8.not_lt.mpr continues.1
    refine ⟨⟨byte :: stretch, rest, rfl, List.forall_mem_cons.mpr ⟨first, high⟩, ?_⟩, ?_⟩
    · rw [length, List.length_cons]
      omega
    · intro c read
      obtain ⟨n, rfl, low, up⟩ := digits c read
      have digit : byte.toNat % 64 < 64 := Nat.mod_lt _ (by decide)
      refine ⟨n, rfl, ?_, ?_⟩
      · calc value * 64 ^ (missing + 1) = value * 64 * 64 ^ missing := by
              rw [Nat.pow_succ', Nat.mul_assoc]
          _ ≤ (value * 64 + byte.toNat % 64) * 64 ^ missing :=
              Nat.mul_le_mul_right _ (Nat.le_add_right _ _)
          _ ≤ n := low
      · calc n < (value * 64 + byte.toNat % 64 + 1) * 64 ^ missing := up
          _ ≤ ((value + 1) * 64) * 64 ^ missing := Nat.mul_le_mul_right _ (by omega)
          _ = (value + 1) * 64 ^ (missing + 1) := by rw [Nat.pow_succ', Nat.mul_assoc]
  | case3 missing value used byte rest ends => exact ⟨⟨[], _, rfl, nofun, rfl⟩, nofun⟩
  | case4 missing value used => exact ⟨⟨[], _, rfl, nofun, rfl⟩, nofun⟩

/-- What a first and a second byte begin is a character, and not ASCII, whatever digits follow. -/
theorem valid_of_lead {first second : UInt8} {promise : Lead} (opens : lead first = some promise)
    (low : promise.low ≤ second) (high : second ≤ promise.high) {n : Nat}
    (least : (promise.payload * 64 + second.toNat % 64) * 64 ^ (promise.following - 1) ≤ n)
    (most : n < (promise.payload * 64 + second.toNat % 64 + 1) * 64 ^ (promise.following - 1)) :
    0x80 ≤ n ∧ (n < 0xD800 ∨ 0xDFFF < n ∧ n < 0x110000) := by
  simp only [lead, UInt8.lt_iff_toNat_lt, ← UInt8.toNat_inj, UInt8.reduceToNat] at opens
  rw [UInt8.le_iff_toNat_le] at low high
  have bound : second.toNat < 256 := second.toNat_lt
  split_ifs at opens
  all_goals
    obtain rfl := Option.some.inj opens
    simp only [UInt8.reduceToNat] at low high least most
    omega

theorem low_of_lead {first : UInt8} {promise : Lead} (opens : lead first = some promise) :
    0x80 ≤ promise.low := by
  rw [lead] at opens
  split_ifs at opens
  all_goals
    obtain rfl := Option.some.inj opens
    simp

theorem next_spec (first : UInt8) (rest : List UInt8) (high : ¬first < 0x80) :
    (∃ stretch others, rest = stretch ++ others ∧ (∀ byte ∈ stretch, ¬byte < 0x80) ∧
      (next first rest).2 = stretch.length) ∧
    0x80 ≤ ((next first rest).1.getD replacement).toNat := by
  have malformed : 0x80 ≤ replacement.toNat := by decide
  unfold next
  rw [if_neg high]
  cases opens : lead first with
  | none => exact ⟨⟨[], rest, rfl, nofun, rfl⟩, malformed⟩
  | some promise =>
    cases rest with
    | nil => exact ⟨⟨[], [], rfl, nofun, rfl⟩, malformed⟩
    | cons second rest =>
      by_cases within : (promise.low ≤ second && second ≤ promise.high) = true
      · simp only [within, if_true]
        obtain ⟨⟨stretch, others, rfl, follow, used⟩, digits⟩ := continued_spec
          (promise.following - 1) (promise.payload * 64 + second.toNat % 64) 1 rest
        simp only [Bool.and_eq_true, decide_eq_true_eq] at within
        have range : ¬second < 0x80 :=
          UInt8.not_lt.mpr (UInt8.le_trans (low_of_lead opens) within.1)
        refine ⟨⟨second :: stretch, others, rfl, List.forall_mem_cons.mpr ⟨range, follow⟩, ?_⟩, ?_⟩
        · rw [used, List.length_cons, Nat.add_comm]
        · cases read : (continued (promise.following - 1)
              (promise.payload * 64 + second.toNat % 64) 1 (stretch ++ others)).1 with
          | none => exact malformed
          | some c =>
            obtain ⟨n, rfl, least, most⟩ := digits c read
            obtain ⟨large, valid⟩ := valid_of_lead opens within.1 within.2 least most
            rwa [Option.getD_some, Utf16.toNat_ofNat valid]
      · simp only [within]
        exact ⟨⟨[], _, rfl, nofun, rfl⟩, malformed⟩

theorem lossyFrom_eq_drop (done : List Char) (skip : Nat) (bytes : List UInt8) :
    lossyFrom done skip bytes = lossyFrom done 0 (bytes.drop skip) := by
  induction bytes generalizing skip with
  | nil => simp [lossyFrom]
  | cons byte rest ih =>
    cases skip with
    | zero => rfl
    | succ skip => rw [lossyFrom, ih, List.drop_succ_cons]

theorem exists_shows_lossyFrom (done : List Char) (bytes : List UInt8) :
    ∃ text, lossyFrom done 0 bytes = done.reverse ++ text ∧ Shows bytes text := by
  induction length : bytes.length using Nat.strongRecOn generalizing done bytes with
  | ind length ih =>
    subst length
    cases bytes with
    | nil => exact ⟨[], by simp [lossyFrom], .nil⟩
    | cons byte rest =>
      rw [lossyFrom, lossyFrom_eq_drop]
      by_cases plain : byte < 0x80
      · have ascii : next byte rest = (some (asciiChar byte), 0) := by
          unfold next
          exact if_pos plain
        obtain ⟨text, read, shows⟩ := ih _ (Nat.lt_succ_self rest.length)
          (asciiChar byte :: done) rest rfl
        refine ⟨asciiChar byte :: text, ?_, .ascii plain shows⟩
        simp [ascii, read]
      · obtain ⟨⟨stretch, others, rfl, follow, used⟩, foreign⟩ := next_spec byte rest plain
        have shorter : others.length < (byte :: (stretch ++ others)).length := by
          rw [List.length_cons, List.length_append]
          omega
        obtain ⟨text, read, shows⟩ := ih _ shorter
          ((next byte (stretch ++ others)).1.getD replacement :: done) others rfl
        refine ⟨_ :: text, ?_, .other (List.forall_mem_cons.mpr ⟨plain, follow⟩) foreign shows⟩
        rw [used, List.drop_left, read, List.reverse_cons, List.append_assoc, List.singleton_append]

theorem shows_lossy (bytes : List UInt8) : Shows bytes (lossy bytes) := by
  obtain ⟨text, read, shows⟩ := exists_shows_lossyFrom [] bytes
  rw [lossy, read]
  exact shows

section Words

variable {bytes word : List UInt8} {text : List Char}

theorem Shows.prefix_iff (shows : Shows bytes text) (plain : ∀ byte ∈ word, byte < 0x80) :
    word.map asciiChar <+: text ↔ word <+: bytes := by
  induction word generalizing bytes text with
  | nil => simp
  | cons byte word ih =>
    rw [List.forall_mem_cons] at plain
    rw [List.map_cons]
    cases shows with
    | nil => simp
    | ascii plain' shows =>
      rw [List.cons_prefix_cons, List.cons_prefix_cons, ih shows plain.2,
        asciiChar_inj plain.1 plain']
    | @other first _ _ _ _ high foreign shows =>
      have apart : byte ≠ first := by
        rintro rfl
        exact high byte List.mem_cons_self plain.1
      rw [List.cons_prefix_cons, List.cons_prefix_cons]
      simp [asciiChar_ne plain.1 foreign, apart]

/-- A word is found after a stretch that has none of its first byte where it is found without. -/
theorem infix_append_iff {α : Type} {first : α} {word stretch rest : List α}
    (absent : first ∉ stretch) :
    first :: word <:+: stretch ++ rest ↔ first :: word <:+: rest := by
  induction stretch with
  | nil => rfl
  | cons c stretch ih =>
    rw [List.mem_cons, not_or] at absent
    rw [List.cons_append, List.infix_cons_iff, ih absent.2, List.cons_prefix_cons]
    simp [absent.1]

/-- ASCII words are neither lost nor made by showing bytes as text. -/
theorem Shows.infix_iff (shows : Shows bytes text) (some : word ≠ [])
    (plain : ∀ byte ∈ word, byte < 0x80) : word.map asciiChar <:+: text ↔ word <:+: bytes := by
  induction shows with
  | nil => simp
  | @ascii byte rest text plain' shows ih =>
    rw [List.infix_cons_iff, List.infix_cons_iff, ih, (Shows.ascii plain' shows).prefix_iff plain]
  | @other first stretch rest c text high foreign shows ih =>
    obtain ⟨byte, word, rfl⟩ := List.exists_cons_of_ne_nil some
    rw [List.forall_mem_cons] at plain
    have absent : byte ∉ first :: stretch := fun member => high byte member plain.1
    rw [← List.cons_append, infix_append_iff absent, ← ih]
    have absent' : asciiChar byte ∉ [c] := by
      simpa using asciiChar_ne plain.1 foreign
    exact infix_append_iff absent'

theorem infix_lossy_iff (bytes : List UInt8) (some : word ≠ [])
    (plain : ∀ byte ∈ word, byte < 0x80) :
    word.map asciiChar <:+: lossy bytes ↔ word <:+: bytes :=
  (shows_lossy bytes).infix_iff some plain

end Words

end JarCensus.Text.Utf8
