import JarCensus.Proofs.ClassFile.Checked.Words

/-! Reading class data from an offset on, which is a 64-bit word. `Follows` relates a reader on
words to one on numbers, from every place of data that can be addressed; it is kept by putting
readers one after the other. -/
namespace JarCensus.ClassFile.Checked

/-- Reads bytes of data that stays the same, from an offset on. -/
abbrev WordReader := ReaderT (List UInt8) (StateT (BitVec 64) (Except Stop))

namespace WordReader

variable {α : Type}

/-- Runs a reader on a byte string of its own, from its first byte on. -/
def runOn (reader : WordReader α) (data : List UInt8) : Except Stop α :=
  (reader data 0).map (·.1)

/-- A value that does not depend on the data. -/
def check (value : Except Stop α) : WordReader α := fun _ pos => value.map (·, pos)

/-- Where the `n` bytes after `pos` end, if they are there. -/
def stop? (data : List UInt8) (pos n : BitVec 64) : Option (BitVec 64) :=
  (add pos n).toOption.filter (· ≤ size data)

/-- The next `n` bytes. -/
def bytes (n : BitVec 64) : WordReader (List UInt8) := fun data pos =>
  match stop? data pos n with
  | some stop => do
    let part ← slice data pos stop
    return (part, stop)
  | none => do
    let left ← sub (size data) pos
    let needed ← sub n left
    throw (.refused (.truncated pos.toNat needed.toNat))

def skip (n : BitVec 64) : WordReader Unit := do
  let _ ← bytes n

def u1 : WordReader UInt8 := do
  let part ← bytes 1
  check (byteAt part 0)

def u2 : WordReader UInt16 := do
  let part ← bytes 2
  check (do return word16 (← byteAt part 0) (← byteAt part 1))

def u4 : WordReader UInt32 := do
  let part ← bytes 4
  check (wordAt part)

/-- Runs `item` `n` times onto `done`, latest result first. -/
def timesFrom (item : WordReader α) : (n : Nat) → (done : List α) → WordReader (List α)
  | 0, done => pure done.reverse
  | n + 1, done => do
    let a ← item
    timesFrom item n (a :: done)

/-- A table: a 16-bit count, then that many items. -/
def table (item : WordReader α) : WordReader (List α) := do
  let count ← u2
  timesFrom item count.toNat []

end WordReader

/-- The place in `data` that an offset stands for. -/
def cursor (data : List UInt8) (pos : BitVec 64) : Cursor := ⟨pos.toNat, data.drop pos.toNat⟩

/-- From every place in every data that can be addressed, a reader on words does what one on
numbers does and ends at the same place, which is in the data. -/
def Follows {α β : Type} (related : α → β → Prop) (words : WordReader α) (numbers : Reader β) :
    Prop :=
  ∀ (data : List UInt8) (pos : BitVec 64), Addressable data → pos.toNat ≤ data.length →
    Matches (fun a b => related a.1 b.1 ∧ b.2 = cursor data a.2 ∧ a.2.toNat ≤ data.length)
      (words data pos) (numbers (cursor data pos))

namespace Follows

variable {α β γ δ : Type} {related : α → β → Prop} {related' : γ → δ → Prop}

theorem bind {words : WordReader α} {numbers : Reader β} {next : α → WordReader γ}
    {next' : β → Reader δ} (first : Follows related words numbers)
    (second : ∀ a b, related a b → Follows related' (next a) (next' b)) :
    Follows related' (words >>= next) (numbers >>= next') := by
  intro data pos short inside
  apply (first data pos short inside).bind
  rintro ⟨a, pos'⟩ ⟨b, after⟩ ⟨same, place, inside'⟩
  obtain rfl : after = cursor data pos' := place
  exact second a b same data pos' short inside'

/-- Both readers go on with the same value. -/
theorem bind_same {words : WordReader α} {numbers : Reader α} {next : α → WordReader γ}
    {next' : α → Reader δ} (first : Follows Eq words numbers)
    (second : ∀ a, Follows related' (next a) (next' a)) :
    Follows related' (words >>= next) (numbers >>= next') := by
  apply first.bind
  intro a b same
  obtain rfl : a = b := same
  exact second a

theorem pure {a : α} {b : β} (same : related a b) :
    Follows related (Pure.pure a) (Pure.pure b) :=
  fun _ _ _ inside => .ok ⟨same, rfl, inside⟩

theorem check {value : Except Stop α} {value' : Except FormatError β}
    (run : Matches related value value') :
    Follows related (WordReader.check value) (Reader.check value') := by
  intro data pos _ inside
  cases run with
  | ok same => exact .ok ⟨same, rfl, inside⟩
  | refused lacks => exact .refused lacks

theorem throw {e : FormatError} (lacks : LacksSome e) :
    Follows related (MonadExcept.throw (Stop.refused e)) (MonadExcept.throw e) :=
  fun _ _ _ _ => .refused lacks

/-- A step on words only, which does not stop. -/
theorem given {step : Except Stop α} {a : α} {next : α → WordReader γ} {numbers : Reader δ}
    (ran : step = .ok a) (rest : Follows related' (next a) numbers) :
    Follows related' (WordReader.check step >>= next) numbers := by
  rw [ran]
  exact rest

end Follows

namespace WordReader

variable {α β : Type} {data : List UInt8} {pos n : BitVec 64}

theorem run_bind_check (reader : WordReader α) (value : α → Except Stop β) :
    (reader >>= fun a => check (value a)) data pos =
      reader data pos >>= fun r => (value r.1).map (·, r.2) := rfl

theorem exists_stop (short : Addressable data) (enough : pos.toNat + n.toNat ≤ data.length) :
    ∃ stop, stop? data pos n = some stop ∧ stop.toNat = pos.toNat + n.toNat := by
  have size := toNat_size short
  rw [Addressable] at short
  obtain ⟨stop, ran, value⟩ := exists_add (a := pos) (b := n) (by omega)
  have within : stop ≤ Checked.size data := by
    rw [BitVec.le_def, size]
    omega
  refine ⟨stop, ?_, value⟩
  rw [stop?, ran]
  exact Option.filter_eq_some_iff.mpr ⟨rfl, decide_eq_true within⟩

/-- A sum that leaves its word is past the end of the data as well. -/
theorem stop?_eq_none (short : Addressable data) (missing : data.length < pos.toNat + n.toNat) :
    stop? data pos n = none := by
  have size := toNat_size short
  rw [stop?]
  by_cases fits : pos.toNat + n.toNat < 2 ^ 64
  · obtain ⟨stop, ran, value⟩ := exists_add fits
    rw [ran]
    apply Option.filter_eq_none_iff.mpr
    intro found same
    obtain rfl : stop = found := Option.some.inj same
    simp only [decide_eq_true_eq, BitVec.le_def, size]
    omega
  · rw [add_eq_overflow (by omega)]
    rfl

theorem bytes_of_le (short : Addressable data) (enough : pos.toNat + n.toNat ≤ data.length) :
    ∃ stop, bytes n data pos = .ok ((data.drop pos.toNat).take n.toNat, stop) ∧
      stop.toNat = pos.toNat + n.toNat := by
  obtain ⟨stop, found, value⟩ := exists_stop short enough
  have length : stop.toNat - pos.toNat = n.toNat := by omega
  have part : slice data pos stop = _ := slice_eq_ok short (by omega) (by omega)
  refine ⟨stop, ?_, value⟩
  rw [bytes, found]
  simp only [part, length]
  rfl

theorem bytes_of_lt (short : Addressable data) (inside : pos.toNat ≤ data.length)
    (missing : data.length < pos.toNat + n.toNat) :
    bytes n data pos =
      .error (.refused (.truncated pos.toNat (n.toNat - (data.length - pos.toNat)))) := by
  have size := toNat_size short
  obtain ⟨left, ranLeft, valueLeft⟩ := exists_sub (a := Checked.size data) (b := pos) (by omega)
  obtain ⟨needed, ranNeeded, value⟩ := exists_sub (a := n) (b := left) (by omega)
  rw [bytes, stop?_eq_none short missing]
  simp only [ranLeft, ranNeeded, bind, Except.bind]
  rw [value, valueLeft, size]
  rfl

end WordReader

namespace Follows

variable {α β : Type} {related : α → β → Prop}

/-- A read of `n` bytes, judged by what it makes of them and by what it reports without them. -/
theorem of_width {n : BitVec 64} {value : List UInt8 → Except Stop α} {numbers : Reader β}
    (enough : ∀ offset part rest, part.length = n.toNat → Addressable part →
      ∃ a b, value part = .ok a ∧ related a b ∧
        numbers ⟨offset, part ++ rest⟩ = .ok (b, ⟨offset + n.toNat, rest⟩))
    (missing : ∀ offset rest, rest.length < n.toNat →
      numbers ⟨offset, rest⟩ = .error (.truncated offset (n.toNat - rest.length))) :
    Follows related (WordReader.bytes n >>= fun part => WordReader.check (value part)) numbers := by
  intro data pos short inside
  by_cases fits : pos.toNat + n.toNat ≤ data.length
  · obtain ⟨stop, ran, place⟩ := WordReader.bytes_of_le short fits
    have length : ((data.drop pos.toNat).take n.toNat).length = n.toNat := by
      rw [List.length_take, List.length_drop]
      omega
    have addressable : Addressable ((data.drop pos.toNat).take n.toNat) := by
      rw [Addressable, length]
      rw [Addressable] at short
      omega
    obtain ⟨a, b, made, same, read⟩ :=
      enough pos.toNat _ ((data.drop pos.toNat).drop n.toNat) length addressable
    rw [List.take_append_drop, List.drop_drop, ← place] at read
    have wordsRan : (WordReader.bytes n >>= fun part => WordReader.check (value part)) data pos =
        .ok (a, stop) := by
      rw [WordReader.run_bind_check, ran]
      change (value _).map (·, stop) = _
      rw [made]
      rfl
    have within : stop.toNat ≤ data.length := by omega
    rw [wordsRan, cursor, read]
    exact .ok ⟨same, rfl, within⟩
  · have length : (data.drop pos.toNat).length = data.length - pos.toNat := List.length_drop
    have wordsRan : (WordReader.bytes n >>= fun part => WordReader.check (value part)) data pos =
        .error (.refused (.truncated pos.toNat (n.toNat - (data.length - pos.toNat)))) := by
      rw [WordReader.run_bind_check, WordReader.bytes_of_lt short inside (by omega)]
      rfl
    rw [wordsRan, cursor, missing _ _ (by omega), length]
    apply Matches.refused
    rw [LacksSome]
    omega

/-- Parts of data that can be addressed can be addressed. -/
theorem bytes {n : BitVec 64} {m : Nat} (same : n.toNat = m) :
    Follows (fun part part' => part = part' ∧ Addressable part)
      (WordReader.bytes n) (Reader.bytes m) := by
  subst same
  have whole : WordReader.bytes n =
      WordReader.bytes n >>= fun part => WordReader.check (.ok part) := (bind_pure _).symm
  rw [whole]
  apply of_width
  · intro offset part rest length addressable
    refine ⟨part, part, rfl, ⟨rfl, addressable⟩, ?_⟩
    simp [Reader.bytes, ← length]
  · intro offset rest few
    have all : rest.take n.toNat = rest := List.take_of_length_le (by omega)
    rw [Reader.bytes, all, if_neg (by omega)]

theorem skip {n : BitVec 64} {m : Nat} (same : n.toNat = m) :
    Follows Eq (WordReader.skip n) (Reader.skip m) := by
  apply (bytes same).bind
  intro _ _ _
  exact .pure rfl

theorem u1 : Follows Eq WordReader.u1 Reader.u1 := by
  apply of_width
  · intro offset part rest length _
    obtain ⟨a, rfl⟩ := List.length_eq_one_iff.mp length
    exact ⟨a, a, rfl, rfl, rfl⟩
  · intro offset rest few
    obtain rfl : rest = [] := List.length_eq_zero_iff.mp (Nat.lt_one_iff.mp few)
    rfl

theorem u2 : Follows Eq WordReader.u2 Reader.u2 := by
  apply of_width
  · intro offset part rest length _
    match part, length with
    | [a, b], _ => exact ⟨word16 a b, word16 a b, rfl, rfl, rfl⟩
  · intro offset rest few
    rcases rest with _ | ⟨first, _ | ⟨second, rest⟩⟩
    · rfl
    · rfl
    · exact absurd few (Nat.not_lt.mpr (Nat.le_add_left 2 rest.length))

theorem u4 : Follows Eq WordReader.u4 Reader.u4 := by
  apply of_width
  · intro offset part rest length _
    match part, length with
    | [a, b, c, d], _ => exact ⟨word32 a b c d, word32 a b c d, rfl, rfl, rfl⟩
  · intro offset rest few
    rcases rest with _ | ⟨first, _ | ⟨second, _ | ⟨third, _ | ⟨fourth, rest⟩⟩⟩⟩
    · rfl
    · rfl
    · rfl
    · rfl
    · exact absurd few (Nat.not_lt.mpr (Nat.le_add_left 4 rest.length))

theorem timesFrom {item : WordReader α} {item' : Reader α} (each : Follows Eq item item') (n : Nat)
    (done : List α) : Follows Eq (WordReader.timesFrom item n done)
      (Reader.timesFrom item' n done) := by
  induction n generalizing done with
  | zero => exact .pure rfl
  | succ n ih => exact each.bind_same fun a => ih (a :: done)

theorem table {item : WordReader α} {item' : Reader α} (each : Follows Eq item item') :
    Follows Eq (WordReader.table item) (Reader.table item') :=
  u2.bind_same fun count => timesFrom each count.toNat []

/-- On a byte string of its own a reader starts at offset zero. -/
theorem runOn {words : WordReader α} {numbers : Reader β} (run : Follows related words numbers)
    {data : List UInt8} (short : Addressable data) :
    Matches related (words.runOn data) (numbers.runOn data) := by
  apply (run data 0 short (Nat.zero_le _)).map
  intro a b same
  exact same.1

end Follows

end JarCensus.ClassFile.Checked
