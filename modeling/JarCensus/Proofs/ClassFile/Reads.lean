import JarCensus.ClassFile.Reader
import Mathlib.Algebra.Group.Nat.Defs

/-! What a reader accepts, as a language: byte strings together with the value that each is read
as. `Reads` is exact in both directions and leaves room for any bytes that follow, so the languages
of readers in sequence are joined by concatenation. -/
namespace JarCensus.ClassFile

/-- The two bytes of a word, high byte first. -/
def bytes16 (word : UInt16) : List UInt8 :=
  [UInt8.ofNat (word.toNat / 256), UInt8.ofNat word.toNat]

/-- The four bytes of a word, high byte first. -/
def bytes32 (word : UInt32) : List UInt8 :=
  [UInt8.ofNat (word.toNat / 256 ^ 3), UInt8.ofNat (word.toNat / 256 ^ 2),
    UInt8.ofNat (word.toNat / 256), UInt8.ofNat word.toNat]

theorem bytes16_eq_iff (word : UInt16) (a b : UInt8) :
    bytes16 word = [a, b] ↔ word = word16 a b := by
  have high := a.toNat_lt
  have low := b.toNat_lt
  have bound := word.toNat_lt
  simp only [bytes16, word16, List.cons.injEq, and_true, ← UInt8.toNat_inj, ← UInt16.toNat_inj,
    UInt8.toNat_ofNat', UInt16.toNat_ofNat']
  omega

theorem bytes32_eq_iff (word : UInt32) (a b c d : UInt8) :
    bytes32 word = [a, b, c, d] ↔ word = word32 a b c d := by
  have first := a.toNat_lt
  have second := b.toNat_lt
  have third := c.toNat_lt
  have fourth := d.toNat_lt
  have bound := word.toNat_lt
  simp only [bytes32, word32, List.cons.injEq, and_true, ← UInt8.toNat_inj, ← UInt32.toNat_inj,
    UInt8.toNat_ofNat', UInt32.toNat_ofNat']
  omega

/-- Any two bytes are those of a word. -/
theorem exists_bytes16 (bytes : List UInt8) (pair : bytes.length = 2) :
    ∃ word, bytes = bytes16 word := by
  match bytes, pair with
  | [a, b], _ => exact ⟨word16 a b, ((bytes16_eq_iff _ a b).mpr rfl).symm⟩

/-- Any four bytes are those of a word. -/
theorem exists_bytes32 (bytes : List UInt8) (quad : bytes.length = 4) :
    ∃ word, bytes = bytes32 word := by
  match bytes, quad with
  | [a, b, c, d], _ => exact ⟨word32 a b c d, ((bytes32_eq_iff _ a b c d).mpr rfl).symm⟩

theorem exists_bytes16_append (bytes : List UInt8) (n : Nat) (length : bytes.length = 2 + n) :
    ∃ word tail, bytes = bytes16 word ++ tail ∧ tail.length = n := by
  obtain ⟨word, head⟩ := exists_bytes16 (bytes.take 2) (by rw [List.length_take]; omega)
  refine ⟨word, bytes.drop 2, ?_, by rw [List.length_drop]; omega⟩
  rw [← head, List.take_append_drop]

theorem exists_bytes32_append (bytes : List UInt8) (n : Nat) (length : bytes.length = 4 + n) :
    ∃ word tail, bytes = bytes32 word ++ tail ∧ tail.length = n := by
  obtain ⟨word, head⟩ := exists_bytes32 (bytes.take 4) (by rw [List.length_take]; omega)
  refine ⟨word, bytes.drop 4, ?_, by rw [List.length_drop]; omega⟩
  rw [← head, List.take_append_drop]

/-- Bytes in as many groups as fill them are those of a list, if each group is that of an item. -/
theorem exists_flatMap {β : Type} {encode : β → List UInt8} {size : Nat}
    (each : ∀ bytes : List UInt8, bytes.length = size → ∃ item, bytes = encode item) (n : Nat)
    (bytes : List UInt8) (length : bytes.length = n * size) :
    ∃ items : List β, items.length = n ∧ bytes = items.flatMap encode := by
  induction n generalizing bytes with
  | zero => exact ⟨[], rfl, List.length_eq_zero_iff.mp (by omega)⟩
  | succ n ih =>
    rw [Nat.succ_mul] at length
    obtain ⟨item, first⟩ := each (bytes.take size) (by rw [List.length_take]; omega)
    obtain ⟨items, count, others⟩ := ih (bytes.drop size) (by rw [List.length_drop]; omega)
    refine ⟨item :: items, by rw [List.length_cons, count], ?_⟩
    rw [List.flatMap_cons, ← first, ← others, List.take_append_drop]

theorem length_flatMap_of_length {β : Type} {encode : β → List UInt8} {size : Nat}
    (each : ∀ item, (encode item).length = size) (items : List β) :
    (items.flatMap encode).length = items.length * size := by
  induction items with
  | nil => simp
  | cons item items ih =>
    rw [List.flatMap_cons, List.length_append, each, ih, List.length_cons, Nat.succ_mul,
      Nat.add_comm]

namespace Reader

variable {α β : Type}

/-- `reader` succeeds exactly on the byte strings of `language`, whatever follows them, and passes
over no more than these. -/
def Reads (reader : Reader α) (language : List UInt8 → α → Prop) : Prop :=
  ∀ (before : Cursor) (a : α) (after : Cursor), reader.run before = .ok (a, after) ↔
    ∃ bytes, language bytes a ∧ before.rest = bytes ++ after.rest ∧
      after.offset = before.offset + bytes.length

/-- The encodings of the valid things of a kind, each with the value that is kept of it. -/
def Encodings (Valid : β → Prop) (encode : β → List UInt8) (value : β → α) :
    List UInt8 → α → Prop :=
  fun bytes a => ∃ x, Valid x ∧ bytes = encode x ∧ a = value x

theorem run_bind (reader : Reader α) (next : α → Reader β) (before : Cursor) (b : β)
    (after : Cursor) :
    (reader >>= next).run before = .ok (b, after) ↔
      ∃ a middle, reader.run before = .ok (a, middle) ∧ (next a).run middle = .ok (b, after) := by
  rw [StateT.run_bind]
  cases ran : reader.run before with
  | error e => simp [bind, Except.bind]
  | ok result =>
    obtain ⟨a, middle⟩ := result
    constructor
    · intro rest
      exact ⟨a, middle, rfl, rest⟩
    · rintro ⟨a', middle', same, rest⟩
      cases same
      exact rest

theorem Reads.congr {reader : Reader α} {language other : List UInt8 → α → Prop}
    (reads : Reads reader language) (same : ∀ bytes a, language bytes a ↔ other bytes a) :
    Reads reader other := by
  intro before a after
  simp only [reads before a after, same]

theorem Reads.pure (a : α) : Reads (pure a) fun bytes b => bytes = [] ∧ b = a := by
  rintro ⟨offset, rest⟩ b ⟨offset', rest'⟩
  constructor
  · intro ran
    cases ran
    exact ⟨[], ⟨rfl, rfl⟩, rfl, rfl⟩
  · rintro ⟨_, ⟨rfl, rfl⟩, same, moved⟩
    obtain rfl : rest = rest' := same
    obtain rfl : offset' = offset := moved
    rfl

theorem Reads.check (value : Except FormatError α) :
    Reads (check value) fun bytes a => bytes = [] ∧ value = .ok a := by
  cases value with
  | error e =>
    intro before a after
    simp [Reader.check, StateT.run, Except.map]
  | ok a =>
    refine (Reads.pure a).congr fun bytes b => ?_
    simp [eq_comm]

theorem Reads.throw (e : FormatError) : Reads (throw e : Reader α) fun _ _ => False := by
  intro before a after
  constructor
  · intro thrown
    cases thrown
  · rintro ⟨_, impossible, _⟩
    exact impossible.elim

theorem Reads.bind {reader : Reader α} {next : α → Reader β} {first : List UInt8 → α → Prop}
    {second : α → List UInt8 → β → Prop} (reads : Reads reader first)
    (continues : ∀ a, Reads (next a) (second a)) :
    Reads (reader >>= next) fun bytes b =>
      ∃ a head tail, first head a ∧ second a tail b ∧ bytes = head ++ tail := by
  intro before b after
  rw [run_bind]
  constructor
  · rintro ⟨a, middle, ran, rest⟩
    obtain ⟨head, inFirst, split, moved⟩ := (reads before a middle).mp ran
    obtain ⟨tail, inSecond, split', moved'⟩ := (continues a middle b after).mp rest
    refine ⟨head ++ tail, ⟨a, head, tail, inFirst, inSecond, rfl⟩, ?_, ?_⟩
    · rw [split, split', List.append_assoc]
    · rw [moved', moved, List.length_append, Nat.add_assoc]
  · rintro ⟨_, ⟨a, head, tail, inFirst, inSecond, rfl⟩, split, moved⟩
    refine ⟨a, ⟨before.offset + head.length, tail ++ after.rest⟩, ?_, ?_⟩
    · exact (reads _ _ _).mpr ⟨head, inFirst, by rw [split, List.append_assoc], rfl⟩
    · refine (continues a _ _ _).mpr ⟨tail, inSecond, rfl, ?_⟩
      rw [moved, List.length_append, Nat.add_assoc]

theorem Reads.u1 : Reads u1 fun bytes a => bytes = [a] := by
  rintro ⟨offset, rest⟩ a ⟨offset', rest'⟩
  cases rest with
  | nil => simp [Reader.u1, StateT.run]
  | cons b rest =>
    simp only [Reader.u1, StateT.run, Except.ok.injEq, Prod.mk.injEq, Cursor.mk.injEq,
      exists_eq_left, List.cons_append, List.nil_append, List.cons.injEq, List.length_cons,
      List.length_nil]
    grind

theorem Reads.u2 : Reads u2 fun bytes word => bytes = bytes16 word := by
  rintro ⟨offset, rest⟩ word ⟨offset', rest'⟩
  match rest with
  | [] => simp [Reader.u2, StateT.run, bytes16]
  | [_] => simp [Reader.u2, StateT.run, bytes16]
  | a :: b :: rest =>
    simp only [Reader.u2, StateT.run, Except.ok.injEq, Prod.mk.injEq, Cursor.mk.injEq,
      exists_eq_left]
    have same := bytes16_eq_iff word a b
    simp [bytes16] at same ⊢
    grind

theorem Reads.u4 : Reads u4 fun bytes word => bytes = bytes32 word := by
  rintro ⟨offset, rest⟩ word ⟨offset', rest'⟩
  match rest with
  | [] | [_] | [_, _] | [_, _, _] => simp [Reader.u4, StateT.run, bytes32]
  | a :: b :: c :: d :: rest =>
    simp only [Reader.u4, StateT.run, Except.ok.injEq, Prod.mk.injEq, Cursor.mk.injEq,
      exists_eq_left]
    have same := bytes32_eq_iff word a b c d
    simp [bytes32] at same ⊢
    grind

theorem Reads.bytes (n : Nat) : Reads (bytes n) fun part a => part = a ∧ a.length = n := by
  rintro ⟨offset, rest⟩ a ⟨offset', rest'⟩
  simp only [Reader.bytes, StateT.run]
  split
  next enough =>
    simp only [Except.ok.injEq, Prod.mk.injEq, Cursor.mk.injEq]
    constructor
    · rintro ⟨rfl, rfl, rfl⟩
      exact ⟨_, ⟨rfl, enough⟩, (List.take_append_drop n rest).symm, by rw [enough]⟩
    · rintro ⟨_, ⟨rfl, rfl⟩, rfl, rfl⟩
      simp
  next short =>
    simp only [reduceCtorEq, false_iff]
    rintro ⟨_, ⟨rfl, rfl⟩, rfl, _⟩
    simp at short

theorem Reads.skip (n : Nat) : Reads (skip n) fun bytes _ => bytes.length = n := by
  refine ((Reads.bytes n).bind fun _ => Reads.pure ()).congr fun bytes _ => ?_
  constructor
  · rintro ⟨_, _, _, ⟨rfl, length⟩, ⟨rfl, _⟩, rfl⟩
    rwa [List.append_nil]
  · intro length
    exact ⟨bytes, bytes, [], ⟨rfl, length⟩, ⟨rfl, rfl⟩, (List.append_nil bytes).symm⟩

/-- A last step that only computes reads nothing. -/
theorem Reads.map {reader : Reader α} {language : List UInt8 → α → Prop}
    (reads : Reads reader language) (f : α → β) :
    Reads (do let a ← reader; return f a) fun bytes b => ∃ a, language bytes a ∧ b = f a := by
  refine (reads.bind fun a => Reads.pure (f a)).congr fun bytes b => ?_
  constructor
  · rintro ⟨a, _, _, inside, ⟨rfl, rfl⟩, rfl⟩
    exact ⟨a, by rwa [List.append_nil], rfl⟩
  · rintro ⟨a, inside, rfl⟩
    exact ⟨a, bytes, [], inside, ⟨rfl, rfl⟩, (List.append_nil bytes).symm⟩

theorem Reads.check_bind {next : α → Reader β} {language : α → List UInt8 → β → Prop}
    (value : Except FormatError α) (continues : ∀ a, Reads (next a) (language a)) :
    Reads (Reader.check value >>= next) fun bytes b => ∃ a, value = .ok a ∧ language a bytes b := by
  refine ((Reads.check value).bind continues).congr fun bytes b => ?_
  constructor
  · rintro ⟨a, _, tail, ⟨rfl, good⟩, inside, rfl⟩
    exact ⟨a, good, inside⟩
  · rintro ⟨a, good, inside⟩
    exact ⟨a, [], bytes, ⟨rfl, good⟩, inside, rfl⟩

/-- A first step whose bytes are given by its value. -/
theorem Reads.bind_encoded {reader : Reader α} {encode : α → List UInt8} {next : α → Reader β}
    {language : α → List UInt8 → β → Prop} (reads : Reads reader fun bytes a => bytes = encode a)
    (continues : ∀ a, Reads (next a) (language a)) :
    Reads (reader >>= next) fun bytes b =>
      ∃ a tail, language a tail b ∧ bytes = encode a ++ tail := by
  refine (reads.bind continues).congr fun bytes b => ?_
  constructor
  · rintro ⟨a, _, tail, rfl, inside, rfl⟩
    exact ⟨a, tail, inside, rfl⟩
  · rintro ⟨a, tail, inside, rfl⟩
    exact ⟨a, _, tail, rfl, inside, rfl⟩

theorem Reads.bind_encodings {γ : Type} {reader : Reader α} {Valid : γ → Prop}
    {encode : γ → List UInt8} {value : γ → α} {next : α → Reader β}
    {language : α → List UInt8 → β → Prop} (reads : Reads reader (Encodings Valid encode value))
    (continues : ∀ a, Reads (next a) (language a)) :
    Reads (reader >>= next) fun bytes b =>
      ∃ x tail, Valid x ∧ language (value x) tail b ∧ bytes = encode x ++ tail := by
  refine (reads.bind continues).congr fun bytes b => ?_
  constructor
  · rintro ⟨_, _, tail, ⟨x, valid, rfl, rfl⟩, inside, rfl⟩
    exact ⟨x, tail, valid, inside, rfl⟩
  · rintro ⟨x, tail, valid, inside, rfl⟩
    exact ⟨_, _, tail, ⟨x, valid, rfl, rfl⟩, inside, rfl⟩

theorem Reads.bytes_bind {next : List UInt8 → Reader β}
    {language : List UInt8 → List UInt8 → β → Prop} (n : Nat)
    (continues : ∀ part, Reads (next part) (language part)) :
    Reads (Reader.bytes n >>= next) fun bytes b =>
      ∃ part tail, part.length = n ∧ language part tail b ∧ bytes = part ++ tail := by
  refine ((Reads.bytes n).bind continues).congr fun bytes b => ?_
  constructor
  · rintro ⟨_, part, tail, ⟨rfl, length⟩, inside, rfl⟩
    exact ⟨part, tail, length, inside, rfl⟩
  · rintro ⟨part, tail, length, inside, rfl⟩
    exact ⟨part, part, tail, ⟨rfl, length⟩, inside, rfl⟩

theorem Reads.skip_bind {next : Unit → Reader β} {language : List UInt8 → β → Prop} (n : Nat)
    (continues : Reads (next ()) language) :
    Reads (Reader.skip n >>= next) fun bytes b =>
      ∃ part tail, part.length = n ∧ language tail b ∧ bytes = part ++ tail := by
  refine ((Reads.skip n).bind fun _ => continues).congr fun bytes b => ?_
  constructor
  · rintro ⟨_, part, tail, length, inside, rfl⟩
    exact ⟨part, tail, length, inside, rfl⟩
  · rintro ⟨part, tail, length, inside, rfl⟩
    exact ⟨(), part, tail, length, inside, rfl⟩

theorem Reads.ite {reader other : Reader α} {language language' : List UInt8 → α → Prop}
    (condition : Prop) [Decidable condition] (reads : Reads reader language)
    (otherwise : Reads other language') :
    Reads (if condition then reader else other) fun bytes a =>
      condition ∧ language bytes a ∨ ¬condition ∧ language' bytes a := by
  by_cases holds : condition
  · simpa [holds] using reads
  · simpa [holds] using otherwise

/-- Items read one after the other are the concatenation of their encodings. -/
theorem Reads.timesFrom {item : Reader α} {Valid : β → Prop} {encode : β → List UInt8}
    {value : β → α} (reads : Reads item (Encodings Valid encode value)) (n : Nat) (done : List α) :
    Reads (timesFrom item n done) fun bytes results => ∃ xs : List β, xs.length = n ∧
      (∀ x ∈ xs, Valid x) ∧ bytes = xs.flatMap encode ∧ results = done.reverse ++ xs.map value := by
  induction n generalizing done with
  | zero =>
    refine (Reads.pure done.reverse).congr fun bytes results => ?_
    constructor
    · rintro ⟨rfl, rfl⟩
      exact ⟨[], rfl, by simp, rfl, by simp⟩
    · rintro ⟨xs, empty, _, rfl, rfl⟩
      obtain rfl := List.length_eq_zero_iff.mp empty
      simp
  | succ n ih =>
    refine (reads.bind fun a => ih (a :: done)).congr fun bytes results => ?_
    constructor
    · rintro ⟨_, _, _, ⟨x, valid, rfl, rfl⟩, ⟨xs, length, valids, rfl, rfl⟩, rfl⟩
      refine ⟨x :: xs, by rw [List.length_cons, length], ?_, rfl, by simp⟩
      exact List.forall_mem_cons.mpr ⟨valid, valids⟩
    · rintro ⟨xs, length, valids, rfl, rfl⟩
      obtain ⟨x, xs, rfl⟩ := List.exists_cons_of_length_eq_add_one length
      obtain ⟨valid, valids⟩ := List.forall_mem_cons.mp valids
      refine ⟨value x, encode x, xs.flatMap encode, ⟨x, valid, rfl, rfl⟩, ?_, rfl⟩
      exact ⟨xs, Nat.succ.inj length, valids, rfl, by simp⟩

/-- A count, then the items. -/
def encodeTable (encode : β → List UInt8) (items : List β) : List UInt8 :=
  bytes16 (UInt16.ofNat items.length) ++ items.flatMap encode

/-- A table holds at most as many items as its count can say. -/
def ValidTable (Valid : β → Prop) (items : List β) : Prop :=
  items.length < 2 ^ 16 ∧ ∀ item ∈ items, Valid item

theorem Reads.table {item : Reader α} {Valid : β → Prop} {encode : β → List UInt8} {value : β → α}
    (reads : Reads item (Encodings Valid encode value)) :
    Reads (table item) (Encodings (ValidTable Valid) (encodeTable encode) (List.map value)) := by
  refine (Reads.u2.bind fun count => reads.timesFrom count.toNat []).congr fun bytes results => ?_
  constructor
  · rintro ⟨count, _, _, rfl, ⟨xs, length, valids, rfl, rfl⟩, rfl⟩
    refine ⟨xs, ⟨length ▸ count.toNat_lt, valids⟩, ?_, rfl⟩
    rw [encodeTable, length, UInt16.ofNat_toNat]
  · rintro ⟨xs, ⟨bound, valids⟩, rfl, rfl⟩
    refine ⟨UInt16.ofNat xs.length, _, _, rfl, ⟨xs, ?_, valids, rfl, rfl⟩, rfl⟩
    rw [UInt16.toNat_ofNat', Nat.mod_eq_of_lt bound]

/-- On a byte string of its own a reader may leave bytes over. -/
theorem Reads.runOn {reader : Reader α} {language : List UInt8 → α → Prop}
    (reads : Reads reader language) (bytes : List UInt8) (a : α) :
    reader.runOn bytes = .ok a ↔ ∃ head tail, language head a ∧ bytes = head ++ tail := by
  have result : reader.runOn bytes = .ok a ↔
      ∃ after, reader.run ⟨0, bytes⟩ = .ok (a, after) := by
    simp only [Reader.runOn]
    cases reader.run ⟨0, bytes⟩ with
    | error e => simp [Except.map]
    | ok pair =>
      obtain ⟨b, after⟩ := pair
      simp [Except.map]
  rw [result]
  constructor
  · rintro ⟨after, ran⟩
    obtain ⟨head, inside, split, _⟩ := (reads _ _ _).mp ran
    exact ⟨head, after.rest, inside, split⟩
  · rintro ⟨head, tail, inside, rfl⟩
    exact ⟨⟨0 + head.length, tail⟩, (reads _ _ _).mpr ⟨head, inside, rfl, rfl⟩⟩

end Reader

end JarCensus.ClassFile
