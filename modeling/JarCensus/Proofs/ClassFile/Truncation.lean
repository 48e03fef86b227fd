import JarCensus.Proofs.ClassFile.Decoding
import Mathlib.Tactic.Choose

/-! Class data that is cut short or goes on too long. A class file ends where its last method ends:
what follows is not looked at, and data that ends earlier is reported as truncated, with no more
bytes missing than there are. This holds because no reader judges bytes before it has all those of
its next read, and because code bodies are read from attributes that have been cut out whole. -/
namespace JarCensus.ClassFile

/-- The failure of a run over `available` bytes that would have needed up to `extent` of them. -/
def RunsOut {α : Type} (result : Except FormatError α) (available extent : Nat) : Prop :=
  ∃ offset needed, result = .error (.truncated offset needed) ∧
    offset ≤ available ∧ 1 ≤ needed ∧ available + needed ≤ extent

namespace Reader

variable {α β : Type}

/-- A reader that takes its bytes in order, and of a part of what it would take reports only that
there is not enough. -/
structure Sequential (reader : Reader α) : Prop where
  reads : ∃ language, Reads reader language
  cut : ∀ offset bytes rest a,
    reader.run ⟨offset, bytes ++ rest⟩ = .ok (a, ⟨offset + bytes.length, rest⟩) →
      ∀ k < bytes.length,
        RunsOut (reader.run ⟨offset, bytes.take k⟩) (offset + k) (offset + bytes.length)

theorem run_bind_of_ok {reader : Reader α} {before middle : Cursor} {a : α}
    (ran : reader.run before = .ok (a, middle)) (next : α → Reader β) :
    (reader >>= next).run before = (next a).run middle := by
  rw [StateT.run_bind, ran]
  rfl

theorem run_bind_of_error {reader : Reader α} {before : Cursor} {e : FormatError}
    (failed : reader.run before = .error e) (next : α → Reader β) :
    (reader >>= next).run before = .error e := by
  rw [StateT.run_bind, failed]
  rfl

/-- A reader that takes nothing cannot be cut. -/
theorem Sequential.of_nothing {reader : Reader α} {language : List UInt8 → α → Prop}
    (reads : Reads reader language) (nothing : ∀ bytes a, language bytes a → bytes = []) :
    Sequential reader := by
  refine ⟨⟨language, reads⟩, ?_⟩
  intro offset bytes rest a ran k short
  obtain ⟨taken, inside, split, moved⟩ := (reads _ _ _).mp ran
  have empty := nothing taken a inside
  simp only [empty, List.length_nil] at moved
  omega

theorem Sequential.pure (a : α) : Sequential (pure a) :=
  .of_nothing (Reads.pure a) fun _ _ inside => inside.1

theorem Sequential.check (value : Except FormatError α) : Sequential (Reader.check value) :=
  .of_nothing (Reads.check value) fun _ _ inside => inside.1

theorem Sequential.throw (e : FormatError) : Sequential (throw e : Reader α) :=
  .of_nothing (Reads.throw e) fun _ _ impossible => impossible.elim

/-- A single read of `n` bytes that says how many of them are missing. -/
theorem Sequential.of_width {reader : Reader α} {language : List UInt8 → α → Prop} (n : Nat)
    (reads : Reads reader language) (width : ∀ bytes a, language bytes a → bytes.length = n)
    (short : ∀ offset rest, rest.length < n →
      reader.run ⟨offset, rest⟩ = .error (.truncated offset (n - rest.length))) :
    Sequential reader := by
  refine ⟨⟨language, reads⟩, ?_⟩
  intro offset bytes rest a ran k cut
  obtain ⟨taken, inside, split, moved⟩ := (reads _ _ _).mp ran
  have size := width taken a inside
  have length : (bytes.take k).length = k := by
    rw [List.length_take]
    omega
  simp only at moved
  refine ⟨offset, n - k, ?_, by omega, by omega, by omega⟩
  rw [short offset (bytes.take k) (by omega), length]

theorem Sequential.u1 : Sequential u1 := by
  apply Sequential.of_width 1 Reads.u1
  · intro bytes a inside
    simp [inside]
  · intro offset rest short
    have empty : rest = [] := List.length_eq_zero_iff.mp (by omega)
    simp [empty, Reader.u1, StateT.run]

theorem Sequential.u2 : Sequential u2 := by
  apply Sequential.of_width 2 Reads.u2
  · intro bytes word inside
    simp [inside, bytes16]
  · intro offset rest short
    rcases rest with _ | ⟨first, _ | ⟨second, rest⟩⟩
    · simp [Reader.u2, StateT.run]
    · simp [Reader.u2, StateT.run]
    · simp only [List.length_cons] at short
      omega

theorem Sequential.u4 : Sequential u4 := by
  apply Sequential.of_width 4 Reads.u4
  · intro bytes word inside
    simp [inside, bytes32]
  · intro offset rest short
    rcases rest with _ | ⟨first, _ | ⟨second, _ | ⟨third, _ | ⟨fourth, rest⟩⟩⟩⟩
    · simp [Reader.u4, StateT.run]
    · simp [Reader.u4, StateT.run]
    · simp [Reader.u4, StateT.run]
    · simp [Reader.u4, StateT.run]
    · simp only [List.length_cons] at short
      omega

theorem Sequential.bytes (n : Nat) : Sequential (bytes n) := by
  apply Sequential.of_width n (Reads.bytes n)
  · intro bytes a inside
    rw [inside.1, inside.2]
  · intro offset rest short
    have all : rest.take n = rest := List.take_of_length_le (by omega)
    have missing : ¬rest.length = n := by omega
    simp [Reader.bytes, StateT.run, all, missing]

/-- A cut falls either into what the first reader takes or into what the second one takes, and the
first one does not notice bytes missing after its own. -/
theorem Sequential.bind {reader : Reader α} {next : α → Reader β} (first : Sequential reader)
    (second : ∀ a, Sequential (next a)) : Sequential (reader >>= next) := by
  obtain ⟨language, reads⟩ := first.reads
  choose languages continues using fun a => (second a).reads
  refine ⟨⟨_, reads.bind continues⟩, ?_⟩
  intro offset bytes rest b ran k short
  obtain ⟨a, ⟨reached, middle⟩, firstRan, secondRan⟩ := (run_bind ..).mp ran
  obtain ⟨head, inHead, splitHead, movedHead⟩ := (reads _ _ _).mp firstRan
  obtain ⟨tail, inTail, splitTail, movedTail⟩ := (continues a _ _ _).mp secondRan
  simp only at splitHead splitTail movedHead movedTail
  subst movedHead splitTail
  have whole : bytes = head ++ tail := by
    rw [← List.append_assoc] at splitHead
    exact List.append_cancel_right splitHead
  subst whole
  have size : (head ++ tail).length = head.length + tail.length := List.length_append
  by_cases inside : k < head.length
  · rw [List.append_assoc] at firstRan
    obtain ⟨at', needed, failed, early, missing, enough⟩ :=
      first.cut offset head (tail ++ rest) a firstRan k inside
    have part : (head ++ tail).take k = head.take k := List.take_append_of_le_length (by omega)
    refine ⟨at', needed, ?_, early, missing, by omega⟩
    rw [part]
    exact run_bind_of_error failed next
  · rw [size, ← Nat.add_assoc] at secondRan
    obtain ⟨at', needed, failed, early, missing, enough⟩ :=
      (second a).cut (offset + head.length) tail rest b secondRan (k - head.length) (by omega)
    have part : (head ++ tail).take k = head ++ tail.take (k - head.length) := by
      rw [List.take_append, List.take_of_length_le (by omega)]
    have headRan : reader.run ⟨offset, head ++ tail.take (k - head.length)⟩ =
        .ok (a, ⟨offset + head.length, tail.take (k - head.length)⟩) :=
      (reads _ _ _).mpr ⟨head, inHead, rfl, rfl⟩
    refine ⟨at', needed, ?_, by omega, missing, by omega⟩
    rw [part, run_bind_of_ok headRan, failed]

theorem Sequential.map {reader : Reader α} (sequential : Sequential reader) (f : α → β) :
    Sequential (do let a ← reader; return f a) :=
  sequential.bind fun a => .pure (f a)

theorem Sequential.skip (n : Nat) : Sequential (skip n) :=
  (Sequential.bytes n).map fun _ => ()

theorem Sequential.timesFrom {item : Reader α} (sequential : Sequential item) (n : Nat)
    (done : List α) : Sequential (timesFrom item n done) := by
  induction n generalizing done with
  | zero => exact .pure done.reverse
  | succ n ih => exact sequential.bind fun a => ih (a :: done)

theorem Sequential.table {item : Reader α} (sequential : Sequential item) :
    Sequential (table item) :=
  Sequential.u2.bind fun count => sequential.timesFrom count.toNat []

/-- The bytes that a run on data of its own takes are enough for it, whatever follows them, and no
part of them is. -/
theorem Sequential.runOn {reader : Reader α} (sequential : Sequential reader) {data : List UInt8}
    {a : α} (ran : reader.runOn data = .ok a) :
    ∃ n ≤ data.length, (∀ suffix, reader.runOn (data.take n ++ suffix) = .ok a) ∧
      ∀ k < n, RunsOut (reader.runOn (data.take k)) k n := by
  obtain ⟨language, reads⟩ := sequential.reads
  obtain ⟨head, rest, inside, rfl⟩ := (reads.runOn data a).mp ran
  have taken : (head ++ rest).take head.length = head := List.take_left
  refine ⟨head.length, by simp, ?_, ?_⟩
  · intro suffix
    rw [taken]
    exact (reads.runOn _ _).mpr ⟨head, suffix, inside, rfl⟩
  · intro k short
    have whole : reader.run ⟨0, head ++ rest⟩ = .ok (a, ⟨0 + head.length, rest⟩) :=
      (reads _ _ _).mpr ⟨head, inside, rfl, rfl⟩
    obtain ⟨offset, needed, failed, early, missing, enough⟩ :=
      sequential.cut 0 head rest a whole k short
    have part : (head ++ rest).take k = head.take k := List.take_append_of_le_length (by omega)
    refine ⟨offset, needed, ?_, by omega, missing, by omega⟩
    rw [part, Reader.runOn, failed]
    rfl

end Reader

open Reader (Sequential)

theorem skipAttribute_sequential : Sequential skipAttribute :=
  (Sequential.skip 2).bind fun _ => Sequential.u4.bind fun length => .skip length.toNat

theorem skipAttributes_sequential : Sequential skipAttributes :=
  skipAttribute_sequential.table.map fun _ => ()

theorem skipField_sequential : Sequential skipField :=
  (Sequential.skip 6).bind fun _ => skipAttributes_sequential

theorem readConstant_sequential (tag : Tag) : Sequential (readConstant tag) := by
  cases tag with
  | utf8 =>
    refine Sequential.u2.bind fun length => (Sequential.bytes length.toNat).bind fun bytes => ?_
    exact (Sequential.check (ModifiedUtf8.decode bytes)).map Constant.utf8
  | classInfo => exact Sequential.u2.map Constant.classInfo
  | methodRef | interfaceMethodRef =>
    exact Sequential.u2.bind fun owner => Sequential.u2.map (Constant.methodRef owner)
  | nameAndType => exact Sequential.u2.bind fun name => Sequential.u2.map (Constant.nameAndType name)
  | integer | float | fieldRef | dynamic | invokeDynamic =>
    exact (Sequential.skip 4).map fun _ => Constant.other
  | long | double => exact (Sequential.skip 8).map fun _ => Constant.other
  | string | methodType | moduleInfo | packageInfo =>
    exact (Sequential.skip 2).map fun _ => Constant.other
  | methodHandle => exact (Sequential.skip 3).map fun _ => Constant.other

/-- The checks between the reads of a pool fail for other reasons, but on data that is accepted as a
whole they do not fail. -/
theorem readSlots_sequential (remaining : Nat) (index : UInt16)
    (filled : Array (Option Constant)) :
    Sequential (ConstantPool.readSlots remaining index filled) := by
  induction remaining using Nat.strongRecOn generalizing index filled with
  | ind remaining ih =>
  cases remaining with
  | zero => exact .pure filled
  | succ remaining =>
    rw [ConstantPool.readSlots]
    refine Sequential.u1.bind fun byte => ?_
    cases Tag.ofByte? byte with
    | none => exact .throw _
    | some tag =>
      by_cases wide : tag.isWide = true
      · simp only [wide, if_true]
        cases remaining with
        | zero => exact .throw _
        | succ remaining =>
          exact (readConstant_sequential tag).bind fun _ => ih remaining (by omega) _ _
      · simp only [wide]
        exact (readConstant_sequential tag).bind fun _ => ih remaining (by omega) _ _

theorem read_sequential : Sequential ConstantPool.read :=
  Sequential.u2.bind fun count =>
    (readSlots_sequential (count.toNat - 1) 1 #[none]).map ConstantPool.mk

theorem readMethodAttribute_sequential (pool : ConstantPool) :
    Sequential (readMethodAttribute pool) := by
  refine Sequential.u2.bind fun index => (Sequential.check (pool.text index)).bind fun name =>
    Sequential.u4.bind fun length => (Sequential.bytes length.toNat).bind fun body => ?_
  split
  · exact (Sequential.check (decodeBody pool body)).map some
  · exact .pure none

theorem readMethod_sequential (pool : ConstantPool) (owner : String) :
    Sequential (readMethod pool owner) := by
  refine Sequential.u2.bind fun access => Sequential.u2.bind fun nameIndex => ?_
  refine (Sequential.check (pool.text nameIndex)).bind fun name => ?_
  refine Sequential.u2.bind fun descriptorIndex => ?_
  refine (Sequential.check (pool.text descriptorIndex)).bind fun descriptor => ?_
  exact (readMethodAttribute_sequential pool).table.map _

theorem readClassName_sequential (pool : ConstantPool) : Sequential (readClassName pool) :=
  Sequential.u2.bind fun index => (Sequential.check (pool.className index)).map dotted

theorem readSuperName_sequential (pool : ConstantPool) : Sequential (readSuperName pool) := by
  refine Sequential.u2.bind fun index => ?_
  split
  · exact .pure none
  · exact (Sequential.check (pool.className index)).map fun name => some (dotted name)

theorem readParts_sequential : Sequential readParts := by
  refine Sequential.u2.bind fun minor => Sequential.u2.bind fun major => ?_
  refine read_sequential.bind fun pool => Sequential.u2.bind fun access => ?_
  refine (readClassName_sequential pool).bind fun name => ?_
  refine (readSuperName_sequential pool).bind fun superName => ?_
  refine (readClassName_sequential pool).table.bind fun interfaces => ?_
  refine skipField_sequential.table.bind fun _ => ?_
  exact (readMethod_sequential pool name).table.map _

theorem readClass_sequential : Sequential readClass := by
  rw [readClass_eq]
  refine Sequential.u4.bind fun word => ?_
  split
  · exact readParts_sequential
  · exact .throw (.badMagic word)

/-- An accepted class file has a length: any bytes may follow it, and every part of it is refused as
truncated, at a place inside the part and with no more bytes missing than are cut off. -/
theorem decode_determines_length {data : List UInt8} {c : ClassFile}
    (accepted : decode data = .ok c) :
    ∃ n ≤ data.length, (∀ suffix, decode (data.take n ++ suffix) = .ok c) ∧
      ∀ k < n, ∃ offset needed, decode (data.take k) = .error (.truncated offset needed) ∧
        offset ≤ k ∧ 1 ≤ needed ∧ k + needed ≤ n :=
  readClass_sequential.runOn accepted

/-- A class `M` with a constant of two slots, a field, and a method `f()` that calls itself. -/
def selfCaller : ClassLayout where
  minor := 0
  major := 52
  constants := [.utf8 [.one 0x4D], .classInfo 1, .utf8 [.one 0x66],
    .utf8 [.one 0x28, .one 0x29, .one 0x56], .utf8 [.one 0x43, .one 0x6F, .one 0x64, .one 0x65],
    .long 0 7, .nameAndType 3 4, .methodRef 2 8]
  access := 0x21
  thisClass := 2
  superClass := 0
  interfaces := [2]
  fields := [⟨0, 3, 4, [⟨5, [1, 2, 3]⟩]⟩]
  methods := [⟨0x09, 3, 4, [.code 5 ⟨0, 0, [0xB8, 0, 9, 0xB1], [], [], []⟩]⟩]

/-- Two bytes follow the class. -/
theorem decode_selfCaller_determines_length :
    decode (selfCaller.encode ++ [0, 0]) = .ok selfCaller.projection ∧
    ∃ n ≤ (selfCaller.encode ++ [0, 0]).length,
      (∀ suffix, decode ((selfCaller.encode ++ [0, 0]).take n ++ suffix) =
        .ok selfCaller.projection) ∧
      ∀ k < n, ∃ offset needed,
        decode ((selfCaller.encode ++ [0, 0]).take k) = .error (.truncated offset needed) ∧
          offset ≤ k ∧ 1 ≤ needed ∧ k + needed ≤ n := by
  have accepted : decode (selfCaller.encode ++ [0, 0]) = .ok selfCaller.projection :=
    (toOption_eq_some_iff _ _).mp (by decide +kernel)
  exact ⟨accepted, decode_determines_length accepted⟩

end JarCensus.ClassFile
