import JarCensus.FormatError

/-! Big-endian reads from the front of a byte string. A read that finds too few bytes reports where
it began and how many were missing, and consumes nothing. -/
namespace JarCensus.ClassFile

structure Cursor where
  offset : Nat
  rest : List UInt8
  deriving DecidableEq, Repr

abbrev Reader := StateT Cursor (Except FormatError)

/-- The 16-bit word of two bytes, high byte first. -/
def word16 (a b : UInt8) : UInt16 := UInt16.ofNat (a.toNat * 256 + b.toNat)

def word32 (a b c d : UInt8) : UInt32 :=
  UInt32.ofNat (((a.toNat * 256 + b.toNat) * 256 + c.toNat) * 256 + d.toNat)

namespace Reader

/-- Runs a reader on a byte string of its own, counting offsets from its first byte. Bytes left
over are dropped. -/
def runOn {α : Type} (reader : Reader α) (bytes : List UInt8) : Except FormatError α :=
  (reader.run ⟨0, bytes⟩).map (·.1)

def u1 : Reader UInt8 := fun c =>
  match c.rest with
  | a :: rest => .ok (a, ⟨c.offset + 1, rest⟩)
  | [] => .error (.truncated c.offset 1)

def u2 : Reader UInt16 := fun c =>
  match c.rest with
  | a :: b :: rest => .ok (word16 a b, ⟨c.offset + 2, rest⟩)
  | short => .error (.truncated c.offset (2 - short.length))

def u4 : Reader UInt32 := fun c =>
  match c.rest with
  | a :: b :: d :: e :: rest => .ok (word32 a b d e, ⟨c.offset + 4, rest⟩)
  | short => .error (.truncated c.offset (4 - short.length))

def bytes (n : Nat) : Reader (List UInt8) := fun c =>
  let part := c.rest.take n
  if part.length = n then .ok (part, ⟨c.offset + n, c.rest.drop n⟩)
  else .error (.truncated c.offset (n - part.length))

def skip (n : Nat) : Reader Unit := do
  let _ ← bytes n

/-- Runs `item` `n` times onto `done`, latest result first. -/
def timesFrom {α : Type} (item : Reader α) : (n : Nat) → (done : List α) → Reader (List α)
  | 0, done => pure done.reverse
  | n + 1, done => do
    let a ← item
    timesFrom item n (a :: done)

def times {α : Type} (n : Nat) (item : Reader α) : Reader (List α) := timesFrom item n []

/-- A table: a 16-bit count, then that many items. -/
def table {α : Type} (item : Reader α) : Reader (List α) := do
  let count ← u2
  times count.toNat item

/-- A reader that does not depend on the cursor: its value or its error. -/
def check {α : Type} (value : Except FormatError α) : Reader α := fun c => value.map (·, c)

end Reader

end JarCensus.ClassFile
