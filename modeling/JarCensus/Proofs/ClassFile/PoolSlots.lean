import JarCensus.Proofs.ClassFile.Truncation
import Mathlib.Algebra.GroupWithZero.Nat
import Mathlib.Logic.Relation

/-! The slots of a constant pool and the indices that lead to them. A pool is filled constant by
constant, and between two of them as many slots have been filled as the index of the next one says.
So a constant is found where the widths of those before it put it, and nothing else is found. -/
namespace JarCensus.ClassFile

/-- How many slots a constant takes. -/
def Entry.width (entry : Entry) : Nat := if entry.tag.isWide then 2 else 1

/-- How many slots several constants take. -/
def extent (entries : List Entry) : Nat := (entries.map Entry.width).sum

theorem Entry.width_pos (entry : Entry) : 0 < entry.width := by
  rw [Entry.width]
  split <;> omega

theorem extent_nil : extent [] = 0 := rfl

theorem extent_cons (entry : Entry) (entries : List Entry) :
    extent (entry :: entries) = entry.width + extent entries := List.sum_cons

theorem extent_append (entries others : List Entry) :
    extent (entries ++ others) = extent entries + extent others := by
  rw [extent, List.map_append, List.sum_append, extent, extent]

theorem Entry.length_slots (entry : Entry) : entry.slots.length = entry.width := by
  rw [Entry.slots, Entry.width]
  split <;> rfl

theorem length_flatMap_slots (entries : List Entry) :
    (entries.flatMap Entry.slots).length = extent entries := by
  rw [List.length_flatMap, extent, funext Entry.length_slots]

theorem Entry.slots_of_wide {entry : Entry} (wide : entry.tag.isWide = true) :
    entry.slots = [some entry.constant, none] := if_pos wide

theorem Entry.slots_of_narrow {entry : Entry} (narrow : ¬entry.tag.isWide = true) :
    entry.slots = [some entry.constant] := if_neg narrow

theorem readConstant_run {entry : Entry} (valid : entry.Valid) (offset : Nat) (rest : List UInt8) :
    (readConstant entry.tag).run ⟨offset, entry.payload ++ rest⟩ =
      .ok (entry.constant, ⟨offset + entry.payload.length, rest⟩) :=
  (readConstant_reads entry.tag _ _ _).mpr ⟨_, ⟨entry, ⟨rfl, valid⟩, rfl, rfl⟩, rfl, rfl⟩

/-- A pool that is being filled, between two constants: how many slots are still to fill, the index
of the next one, those filled so far, and what is still to read. -/
structure Filling where
  remaining : Nat
  index : UInt16
  slots : Array (Option Constant)
  cursor : Cursor

namespace ConstantPool

/-- One turn of `readSlots`, which fills one slot or two. -/
def readSlot (remaining : Nat) (index : UInt16) (slots : Array (Option Constant)) :
    Reader (Nat × UInt16 × Array (Option Constant)) := do
  let byte ← Reader.u1
  match Tag.ofByte? byte with
  | none => throw (.unknownTag byte index)
  | some tag =>
    if tag.isWide then
      match remaining with
      | 0 => throw (.badIndex index)
      | remaining + 1 => do
        let constant ← readConstant tag
        return (remaining, index + 2, (slots.push (some constant)).push none)
    else do
      let constant ← readConstant tag
      return (remaining, index + 1, slots.push (some constant))

theorem readSlots_succ (remaining : Nat) (index : UInt16) (slots : Array (Option Constant)) :
    readSlots (remaining + 1) index slots =
      (do
        let (remaining, index, slots) ← readSlot remaining index slots
        readSlots remaining index slots) := by
  rw [readSlots, readSlot, bind_assoc]
  congr 1
  funext byte
  cases Tag.ofByte? byte with
  | none => rfl
  | some tag =>
    by_cases wide : tag.isWide = true
    · cases remaining with
      | zero => simp only [wide, if_true]; rfl
      | succ remaining => simp only [wide, if_true, bind_assoc, pure_bind]
    · simp only [wide, Bool.false_eq_true, if_false, bind_assoc, pure_bind]

/-- A turn fills the slots of the constant that comes next, if they are not too many. -/
theorem readSlot_run {entry : Entry} (valid : entry.Valid) {remaining : Nat}
    (fits : entry.width ≤ remaining + 1) (index : UInt16) (slots : Array (Option Constant))
    (offset : Nat) (rest : List UInt8) :
    (readSlot remaining index slots).run ⟨offset, entry.encode ++ rest⟩ =
      .ok ((remaining + 1 - entry.width, index + UInt16.ofNat entry.width,
        slots ++ entry.slots.toArray), ⟨offset + entry.encode.length, rest⟩) := by
  have tagRead : Reader.u1.run ⟨offset, entry.encode ++ rest⟩ =
      .ok (entry.tag.byte, ⟨offset + 1, entry.payload ++ rest⟩) := rfl
  have known : Tag.ofByte? entry.tag.byte = some entry.tag := (Tag.ofByte?_eq_some_iff ..).mpr rfl
  have constantRead := readConstant_run valid (offset + 1) rest
  have length : entry.encode.length = 1 + entry.payload.length := by
    rw [Entry.encode, List.length_cons, Nat.add_comm]
  rw [readSlot, Reader.run_bind_of_ok tagRead]
  simp only [known]
  by_cases wide : entry.tag.isWide = true
  · have two : entry.width = 2 := if_pos wide
    obtain ⟨remaining, rfl⟩ : ∃ fewer, remaining = fewer + 1 := ⟨remaining - 1, by omega⟩
    have pushed (constant : Constant) :
        (slots.push (some constant)).push none = slots ++ [some constant, none].toArray := by
      apply Array.ext'
      simp
    simp only [wide, if_true]
    rw [Reader.run_bind_of_ok constantRead, Entry.slots_of_wide wide, two, length, pushed]
    rw [StateT.run_pure]
    simp [pure, Except.pure, Nat.add_assoc]
  · have one : entry.width = 1 := if_neg wide
    simp only [wide, Bool.false_eq_true, if_false]
    rw [Reader.run_bind_of_ok constantRead, Entry.slots_of_narrow wide, one, length]
    rw [StateT.run_pure]
    simp [pure, Except.pure, Nat.add_assoc]

end ConstantPool

namespace Filling

/-- Where a filling begins: slot zero is there, and the count includes it. -/
def start (count : UInt16) (cursor : Cursor) : Filling := ⟨count.toNat - 1, 1, #[none], cursor⟩

/-- One turn of the loop, which ends when nothing remains. -/
def Steps (filling next : Filling) : Prop :=
  ∃ remaining, filling.remaining = remaining + 1 ∧
    (ConstantPool.readSlot remaining filling.index filling.slots).run filling.cursor =
      .ok ((next.remaining, next.index, next.slots), next.cursor)

/-- Any number of turns. -/
def Reaches : Filling → Filling → Prop := Relation.ReflTransGen Steps

/-- What a filling becomes when `entries` have been read and `rest` is left. -/
def after (filling : Filling) (entries : List Entry) (rest : List UInt8) : Filling where
  remaining := filling.remaining - extent entries
  index := filling.index + UInt16.ofNat (extent entries)
  slots := filling.slots ++ (entries.flatMap Entry.slots).toArray
  cursor := ⟨filling.cursor.offset + (entries.flatMap Entry.encode).length, rest⟩

variable {filling : Filling} {entries : List Entry} {rest : List UInt8}

theorem after_nil (whole : filling.cursor.rest = rest) : filling.after [] rest = filling := by
  subst whole
  simp [after, extent_nil]

theorem Steps.unique {next other : Filling} (first : filling.Steps next)
    (second : filling.Steps other) : next = other := by
  obtain ⟨remaining, left, turned⟩ := first
  obtain ⟨remaining', left', turned'⟩ := second
  obtain rfl : remaining = remaining' := by omega
  rw [turned] at turned'
  obtain ⟨_, _, _, _⟩ := next
  obtain ⟨_, _, _, _⟩ := other
  simpa [and_assoc] using turned'

/-- A constant that fits is read in one turn. -/
theorem steps_after {entry : Entry} (valid : entry.Valid) (earlier : List Entry)
    (fits : extent earlier + entry.width ≤ filling.remaining) :
    (filling.after earlier (entry.encode ++ rest)).Steps
      (filling.after (earlier ++ [entry]) rest) := by
  have positive := entry.width_pos
  obtain ⟨fewer, left⟩ : ∃ fewer, filling.remaining - extent earlier = fewer + 1 :=
    Nat.exists_eq_add_one.mpr (by omega)
  refine ⟨fewer, left, ?_⟩
  rw [after, ConstantPool.readSlot_run valid (by omega), ← left]
  simp [after, extent_append, extent_cons, extent_nil, Nat.sub_sub, Nat.add_assoc,
    UInt16.add_assoc]

/-- Constants that fit are read one after the other, whatever comes after them. -/
theorem reaches_after (earlier : List Entry) {later : List Entry}
    (valid : ∀ entry ∈ later, entry.Valid)
    (fits : extent earlier + extent later ≤ filling.remaining) :
    (filling.after earlier (later.flatMap Entry.encode ++ rest)).Reaches
      (filling.after (earlier ++ later) rest) := by
  induction later generalizing earlier with
  | nil =>
    rw [List.append_nil]
    exact .refl
  | cons entry later ih =>
    rw [extent_cons] at fits
    obtain ⟨first, others⟩ := List.forall_mem_cons.mp valid
    rw [List.flatMap_cons, List.append_assoc, List.append_cons]
    refine .head (steps_after first earlier (by omega)) (ih (earlier ++ [entry]) others ?_)
    rw [extent_append, extent_cons, extent_nil]
    omega

/-- On the way through constants that fill all that remains, each turn leads past the next one. -/
theorem exists_after_of_reaches (valid : ∀ entry ∈ entries, entry.Valid)
    (exact : extent entries = filling.remaining) {reached : Filling}
    (reaches : (filling.after [] (entries.flatMap Entry.encode ++ rest)).Reaches reached) :
    ∃ earlier later, entries = earlier ++ later ∧
      reached = filling.after earlier (later.flatMap Entry.encode ++ rest) := by
  induction reaches with
  | refl => exact ⟨[], entries, rfl, rfl⟩
  | tail _ step ih =>
    obtain ⟨earlier, later, rfl, rfl⟩ := ih
    cases later with
    | nil =>
      -- nothing remains after the last constant, and then the loop ends
      obtain ⟨remaining, left, _⟩ := step
      simp [after, ← exact] at left
    | cons entry later =>
      have member : entry ∈ earlier ++ entry :: later := by simp
      rw [List.flatMap_cons, List.append_assoc] at step
      refine ⟨earlier ++ [entry], later, by simp, ?_⟩
      refine step.unique (steps_after (valid entry member) earlier ?_)
      rw [← exact, extent_append, extent_cons]
      omega

theorem start_eq_after (count : UInt16) (cursor : Cursor) :
    start count cursor = (start count cursor).after [] cursor.rest := (after_nil rfl).symm

theorem start_reaches_after {count : UInt16} (valid : ∀ entry ∈ entries, entry.Valid)
    (fits : extent entries ≤ count.toNat - 1) (offset : Nat) (rest : List UInt8) :
    (start count ⟨offset, entries.flatMap Entry.encode ++ rest⟩).Reaches
      ((start count ⟨offset, entries.flatMap Entry.encode ++ rest⟩).after entries rest) := by
  generalize begun : start count ⟨offset, entries.flatMap Entry.encode ++ rest⟩ = filling
  have same : filling.after [] (entries.flatMap Entry.encode ++ rest) = filling :=
    after_nil (by rw [← begun, start])
  have room : extent [] + extent entries ≤ filling.remaining := by
    rwa [← begun, extent_nil, Nat.zero_add]
  have reached : (filling.after [] (entries.flatMap Entry.encode ++ rest)).Reaches
      (filling.after entries rest) := reaches_after [] valid room
  rwa [same] at reached

theorem index_after_start {count : UInt16} (cursor : Cursor) (rest : List UInt8)
    (fits : extent entries ≤ count.toNat - 1) :
    ((start count cursor).after entries rest).index.toNat = 1 + extent entries := by
  have bound := count.toNat_lt
  rw [after, start, UInt16.toNat_add, UInt16.toNat_ofNat', UInt16.toNat_one]
  omega

/-- As many slots are filled as the index says, and with those that remain they are all. -/
theorem after_start_aligned (count : UInt16) (cursor : Cursor) (rest : List UInt8)
    (fits : extent entries ≤ count.toNat - 1) :
    ((start count cursor).after entries rest).slots.size =
        ((start count cursor).after entries rest).index.toNat ∧
      ((start count cursor).after entries rest).index.toNat +
          ((start count cursor).after entries rest).remaining =
        max count.toNat 1 := by
  rw [index_after_start cursor rest fits]
  rw [after, start]
  refine ⟨?_, by dsimp only; omega⟩
  rw [Array.size_append, List.size_toArray, List.size_toArray, length_flatMap_slots]
  rfl

/-- Constants that take all slots leave a pool of these constants. -/
theorem after_start_filled {count : UInt16} (filled : extent entries = count.toNat - 1)
    (offset : Nat) (ahead rest : List UInt8) :
    (start count ⟨offset, ahead⟩).after entries rest =
      ⟨0, UInt16.ofNat (max count.toNat 1), (ConstantPool.ofEntries entries).slots,
        ⟨offset + (entries.flatMap Entry.encode).length, rest⟩⟩ := by
  have index : (start count ⟨offset, ahead⟩).index + UInt16.ofNat (extent entries) =
      UInt16.ofNat (max count.toNat 1) := by
    rw [start, filled, ← UInt16.ofNat_one, ← UInt16.ofNat_add]
    congr 1
    omega
  rw [after, index, start, filled, Nat.sub_self]
  simp [ConstantPool.ofEntries]

end Filling

theorem getElem?_flatMap_slots (earlier later : List Entry) {entry : Entry} {k : Nat}
    (inside : k < entry.width) :
    ((earlier ++ entry :: later).flatMap Entry.slots)[extent earlier + k]? = entry.slots[k]? := by
  rw [List.flatMap_append, List.flatMap_cons, ← length_flatMap_slots earlier,
    List.getElem?_append_right (Nat.le_add_right _ _), Nat.add_sub_cancel_left,
    List.getElem?_append_left (by rwa [entry.length_slots])]

/-- Every slot is one of some constant. -/
theorem exists_slot (entries : List Entry) {n : Nat} (inside : n < extent entries) :
    ∃ earlier entry later k, entries = earlier ++ entry :: later ∧ k < entry.width ∧
      n = extent earlier + k := by
  induction entries generalizing n with
  | nil => cases inside
  | cons entry entries ih =>
    rw [extent_cons] at inside
    by_cases own : n < entry.width
    · exact ⟨[], entry, entries, n, rfl, own, (Nat.zero_add n).symm⟩
    · obtain ⟨earlier, other, later, k, rfl, small, place⟩ := ih (n := n - entry.width) (by omega)
      refine ⟨entry :: earlier, other, later, k, rfl, small, ?_⟩
      rw [extent_cons]
      omega

/-- The indices that no constant has: zero, those past the count, and the second ones of wide
constants. -/
def Unusable (count : UInt16) (entries : List Entry) (index : UInt16) : Prop :=
  index = 0 ∨ count ≤ index ∨ ∃ earlier entry later, entries = earlier ++ entry :: later ∧
    entry.tag.isWide = true ∧ index.toNat = 2 + extent earlier

namespace ConstantPool

theorem get_eq_error_iff (pool : ConstantPool) (index : UInt16) (error : FormatError) :
    pool.get index = .error error ↔
      error = .badIndex index ∧ ∀ constant, pool.slots[index.toNat]? ≠ some (some constant) := by
  rw [get]
  split
  next constant found => simp [found]
  next missing =>
    rw [Except.error.injEq, eq_comm]
    exact ⟨fun same => ⟨same, missing⟩, fun same => same.1⟩

/-- The constants of a pool stand where the widths of those before them put them, and fill the
count; there are no others. -/
structure Aligned (pool : ConstantPool) (count : UInt16) (entries : List Entry) : Prop where
  size : pool.slots.size = max count.toNat 1
  extent : extent entries = max count.toNat 1 - 1
  found : ∀ earlier entry later, entries = earlier ++ entry :: later →
    ∃ index : UInt16, index.toNat = 1 + ClassFile.extent earlier ∧
      pool.get index = .ok entry.constant
  refused : ∀ index error,
    pool.get index = .error error ↔ error = .badIndex index ∧ Unusable count entries index

theorem getElem?_slots_ofEntries (entries : List Entry) (n : Nat) :
    (ofEntries entries).slots[n + 1]? = (entries.flatMap Entry.slots)[n]? := by
  simp [ofEntries]

theorem size_ofEntries (entries : List Entry) :
    (ofEntries entries).slots.size = 1 + ClassFile.extent entries := by
  rw [ofEntries, List.size_toArray, List.length_cons, length_flatMap_slots, Nat.add_comm]

theorem no_constant_iff {count : UInt16} {entries : List Entry}
    (filled : ClassFile.extent entries = count.toNat - 1) (index : UInt16) :
    (∀ constant, (ofEntries entries).slots[index.toNat]? ≠ some (some constant)) ↔
      Unusable count entries index := by
  constructor
  · intro absent
    by_cases zero : index = 0
    · exact .inl zero
    by_cases past : count ≤ index
    · exact .inr (.inl past)
    rw [← UInt16.toNat_inj, UInt16.toNat_zero] at zero
    rw [UInt16.le_iff_toNat_le] at past
    obtain ⟨n, place⟩ : ∃ n, index.toNat = n + 1 := Nat.exists_eq_add_one.mpr (by omega)
    obtain ⟨earlier, entry, later, k, rfl, inside, rfl⟩ :=
      exists_slot entries (n := n) (by omega)
    rw [place, getElem?_slots_ofEntries, getElem?_flatMap_slots earlier later inside] at absent
    by_cases wide : entry.tag.isWide = true
    · have two : entry.width = 2 := if_pos wide
      obtain rfl | rfl : k = 0 ∨ k = 1 := by omega
      · rw [Entry.slots_of_wide wide] at absent
        exact absurd rfl (absent entry.constant)
      · exact .inr (.inr ⟨earlier, entry, later, rfl, wide, by omega⟩)
    · have one : entry.width = 1 := if_neg wide
      obtain rfl : k = 0 := by omega
      rw [Entry.slots_of_narrow wide] at absent
      exact absurd rfl (absent entry.constant)
  · intro unusable constant
    rcases unusable with rfl | past | ⟨earlier, entry, later, rfl, wide, place⟩
    · simp [ofEntries]
    · by_cases zero : index = 0
      · subst zero
        simp [ofEntries]
      rw [← UInt16.toNat_inj, UInt16.toNat_zero] at zero
      rw [UInt16.le_iff_toNat_le] at past
      rw [Array.getElem?_eq_none (by rw [size_ofEntries]; omega)]
      intro impossible
      cases impossible
    · have two : 1 < entry.width := by
        rw [Entry.width, if_pos wide]
        omega
      rw [place, Nat.add_comm 2, getElem?_slots_ofEntries,
        getElem?_flatMap_slots earlier later two, Entry.slots_of_wide wide]
      intro impossible
      cases impossible

theorem ofEntries_aligned {count : UInt16} {entries : List Entry}
    (filled : ClassFile.extent entries = count.toNat - 1) :
    (ofEntries entries).Aligned count entries where
  size := by
    rw [size_ofEntries]
    omega
  extent := by omega
  found := by
    rintro earlier entry later rfl
    have bound := count.toNat_lt
    have positive := entry.width_pos
    rw [extent_append, extent_cons] at filled
    have index :
        (UInt16.ofNat (1 + ClassFile.extent earlier)).toNat = 1 + ClassFile.extent earlier := by
      rw [UInt16.toNat_ofNat', Nat.mod_eq_of_lt (by omega)]
    refine ⟨_, index, ?_⟩
    rw [get_eq_ok_iff, index, Nat.add_comm, getElem?_slots_ofEntries]
    have first := getElem?_flatMap_slots earlier later positive
    rw [Nat.add_zero] at first
    rw [first, Entry.slots]
    split <;> rfl
  refused index error := by
    rw [get_eq_error_iff, no_constant_iff filled]

/-- A wide constant that would begin in the last slot is refused before its bytes are read. -/
theorem readSlots_of_wide_in_last {tag : Tag} (wide : tag.isWide = true) (index : UInt16)
    (slots : Array (Option Constant)) (offset : Nat) (rest : List UInt8) :
    (readSlots 1 index slots).run ⟨offset, tag.byte :: rest⟩ = .error (.badIndex index) := by
  have tagRead : Reader.u1.run ⟨offset, tag.byte :: rest⟩ = .ok (tag.byte, ⟨offset + 1, rest⟩) :=
    rfl
  have known : Tag.ofByte? tag.byte = some tag := (Tag.ofByte?_eq_some_iff ..).mpr rfl
  rw [readSlots, Reader.run_bind_of_ok tagRead]
  simp only [known, wide, if_true]
  rfl

end ConstantPool

/-- A run of the loop goes on from wherever its turns have led. -/
theorem Filling.readSlots_of_reaches {filling reached : Filling}
    (reaches : filling.Reaches reached) :
    (ConstantPool.readSlots filling.remaining filling.index filling.slots).run filling.cursor =
      (ConstantPool.readSlots reached.remaining reached.index reached.slots).run
        reached.cursor := by
  induction reaches with
  | refl => rfl
  | tail _ step ih =>
    obtain ⟨remaining, left, turned⟩ := step
    rw [ih, left, ConstantPool.readSlots_succ, Reader.run_bind_of_ok turned]

namespace ConstantPool

theorem read_eq_start (count : UInt16) (offset : Nat) (rest : List UInt8) :
    read.run ⟨offset, bytes16 count ++ rest⟩ =
      ((readSlots (count.toNat - 1) 1 #[none]).run ⟨offset + 2, rest⟩).map
        fun (slots, after) => (⟨slots⟩, after) := by
  have countRead : Reader.u2.run ⟨offset, bytes16 count ++ rest⟩ =
      .ok (count, ⟨offset + 2, rest⟩) :=
    (Reader.Reads.u2 _ _ _).mpr ⟨bytes16 count, rfl, rfl, rfl⟩
  rw [read, Reader.run_bind_of_ok countRead, StateT.run_bind]
  cases (readSlots (count.toNat - 1) 1 #[none]).run ⟨offset + 2, rest⟩ <;> rfl

/-- A wide constant is refused with its own index if its second slot would not be in the count. -/
theorem read_of_wide_in_last {count : UInt16} {entries : List Entry} {tag : Tag} {index : UInt16}
    (valid : ∀ entry ∈ entries, entry.Valid) (wide : tag.isWide = true)
    (own : index.toNat = 1 + extent entries) (inside : index < count)
    (outside : count.toNat ≤ index.toNat + 1) (offset : Nat) (rest : List UInt8) :
    read.run ⟨offset, bytes16 count ++ (entries.flatMap Entry.encode ++ tag.byte :: rest)⟩ =
      .error (.badIndex index) := by
  rw [UInt16.lt_iff_toNat_lt] at inside
  have fits : extent entries ≤ count.toNat - 1 := by omega
  let cursor : Cursor := ⟨offset + 2, entries.flatMap Entry.encode ++ tag.byte :: rest⟩
  have last : ((Filling.start count cursor).after entries (tag.byte :: rest)).remaining = 1 := by
    rw [Filling.after, Filling.start]
    dsimp only
    omega
  have here : ((Filling.start count cursor).after entries (tag.byte :: rest)).index = index := by
    rw [← UInt16.toNat_inj, Filling.index_after_start cursor _ fits, own]
  have ran : (readSlots (count.toNat - 1) 1 #[none]).run cursor = .error (.badIndex index) := by
    refine (Filling.readSlots_of_reaches
      (Filling.start_reaches_after valid fits (offset + 2) (tag.byte :: rest))).trans ?_
    rw [last, here]
    exact readSlots_of_wide_in_last wide ..
  rw [read_eq_start, ran]
  rfl

/-- While a pool is read, as many slots are filled as the index of the next one says, and in the end
as many as the count, which includes slot zero even where it is zero itself. Each constant is then
found at one more than the widths of those before it, and all other indices are refused. A wide
constant whose second slot would not be in the count is refused with its own index. -/
theorem read_aligns_slots :
    (∀ before pool after, read.run before = .ok (pool, after) →
      ∃ (count : UInt16) (entries : List Entry),
        before.rest = bytes16 count ++ entries.flatMap Entry.encode ++ after.rest ∧
        (∀ entry ∈ entries, entry.Valid) ∧
        (∀ filling,
          (Filling.start count ⟨before.offset + 2, before.rest.drop 2⟩).Reaches filling →
            filling.slots.size = filling.index.toNat ∧
              filling.index.toNat + filling.remaining = max count.toNat 1) ∧
        (Filling.start count ⟨before.offset + 2, before.rest.drop 2⟩).Reaches
          ⟨0, UInt16.ofNat (max count.toNat 1), pool.slots, after⟩ ∧
        pool.Aligned count entries) ∧
    ∀ (offset : Nat) (count : UInt16) (entries : List Entry) (tag : Tag) (index : UInt16)
      (rest : List UInt8), (∀ entry ∈ entries, entry.Valid) → tag.isWide = true →
        index.toNat = 1 + extent entries → index < count → count.toNat ≤ index.toNat + 1 →
          read.run ⟨offset, bytes16 count ++ (entries.flatMap Entry.encode ++ tag.byte :: rest)⟩ =
            .error (.badIndex index) := by
  refine ⟨?_, fun offset _ _ _ _ rest valid wide own inside outside =>
    read_of_wide_in_last valid wide own inside outside offset rest⟩
  intro before pool after ran
  obtain ⟨_, ⟨count, entries, filled, valid, rfl, rfl⟩, split, moved⟩ :=
    (read_reads before pool after).mp ran
  rw [length_flatMap_slots] at filled
  have begun : before.rest.drop 2 = entries.flatMap Entry.encode ++ after.rest := by
    rw [split, List.append_assoc]
    rfl
  refine ⟨count, entries, split, valid, ?_, ?_, ofEntries_aligned filled⟩
  · intro filling reaches
    rw [Filling.start_eq_after, begun] at reaches
    obtain ⟨earlier, later, rfl, rfl⟩ := Filling.exists_after_of_reaches valid filled reaches
    apply Filling.after_start_aligned
    rw [extent_append] at filled
    omega
  · have ended : after =
        ⟨before.offset + 2 + (entries.flatMap Entry.encode).length, after.rest⟩ := by
      rw [List.length_append] at moved
      rw [Nat.add_assoc]
      exact congrArg (Cursor.mk · after.rest) moved
    rw [begun, ended, ← Filling.after_start_filled filled]
    exact Filling.start_reaches_after valid (Nat.le_of_eq filled) _ _

/-- The long of `selfCaller` takes slots six and seven. With a count of seven it is refused. -/
theorem read_selfCaller_aligns_slots :
    (∃ pool after,
      read.run ⟨0, bytes16 10 ++ selfCaller.constants.flatMap Entry.encode⟩ = .ok (pool, after) ∧
      ∃ count entries, pool.Aligned count entries ∧ pool.get 7 = .error (.badIndex 7) ∧
        pool.get 8 = .ok (.nameAndType 3 4)) ∧
    read.run ⟨0, bytes16 7 ++ ((selfCaller.constants.take 5).flatMap Entry.encode ++
      Tag.long.byte :: [0, 0, 0, 0, 0, 0, 0, 7])⟩ = .error (.badIndex 6) := by
  have valid : ∀ entry ∈ selfCaller.constants, entry.Valid := by
    simp [selfCaller, Entry.Valid, ModifiedUtf8.encode, ModifiedUtf8.Group.bytes]
  obtain ⟨aligns, refuses⟩ := read_aligns_slots
  constructor
  · have ran : read.run ⟨0, bytes16 10 ++ selfCaller.constants.flatMap Entry.encode⟩ =
        .ok (.ofEntries selfCaller.constants, ⟨45, []⟩) :=
      (read_reads _ _ _).mpr ⟨_, ⟨10, _, rfl, valid, rfl, rfl⟩, by rw [List.append_nil], rfl⟩
    obtain ⟨count, entries, -, -, -, -, aligned⟩ := aligns _ _ _ ran
    exact ⟨_, _, ran, count, entries, aligned, rfl, rfl⟩
  · exact refuses 0 7 (selfCaller.constants.take 5) .long 6 _
      (fun entry member => valid entry (List.mem_of_mem_take member)) rfl rfl (by decide)
      (by decide)

end ConstantPool

end JarCensus.ClassFile
