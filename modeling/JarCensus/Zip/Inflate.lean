import JarCensus.Zip.Huffman

/-! Inflating a deflate stream. Bits are taken from the low end of each byte. What follows the
final block is not looked at. -/
namespace JarCensus.Zip.Inflate

/-- Why a stream does not inflate: it breaks a rule of the format, or it ends before its final
block does. -/
inductive Fault where
  | corrupt
  | incomplete
  deriving DecidableEq, Repr

structure Bits where
  data : ByteArray
  taken : Nat

abbrev BitReader := StateT Bits (Except Fault)

namespace BitReader

def bit : BitReader Bool := fun bits =>
  match bits.data[bits.taken / 8]? with
  | some byte => .ok (byte.toNat.testBit (bits.taken % 8), { bits with taken := bits.taken + 1 })
  | none => .error .incomplete

/-- A number of `count` bits, lowest first, times `weight`, plus `value`. -/
def numberFrom : (count weight value : Nat) → BitReader Nat
  | 0, _, value => pure value
  | count + 1, weight, value => do
    let b ← bit
    numberFrom count (weight * 2) (if b then value + weight else value)

def number (count : Nat) : BitReader Nat := numberFrom count 1 0

def align : BitReader Unit := modify fun bits => { bits with taken := (bits.taken + 7) / 8 * 8 }

def symbol : CodeTree → BitReader Nat
  | .vacant => throw .corrupt
  | .leaf symbol => pure symbol
  | .node zero one => do
    if ← bit then symbol one else symbol zero

end BitReader

/-- Shortest length or distance, and extra bits, of a symbol. -/
structure Span where
  base : Nat
  extra : Nat
  deriving DecidableEq, Repr

def lengthSpans : Array Span :=
  #[⟨3, 0⟩, ⟨4, 0⟩, ⟨5, 0⟩, ⟨6, 0⟩, ⟨7, 0⟩, ⟨8, 0⟩, ⟨9, 0⟩, ⟨10, 0⟩, ⟨11, 1⟩, ⟨13, 1⟩, ⟨15, 1⟩,
    ⟨17, 1⟩, ⟨19, 2⟩, ⟨23, 2⟩, ⟨27, 2⟩, ⟨31, 2⟩, ⟨35, 3⟩, ⟨43, 3⟩, ⟨51, 3⟩, ⟨59, 3⟩, ⟨67, 4⟩,
    ⟨83, 4⟩, ⟨99, 4⟩, ⟨115, 4⟩, ⟨131, 5⟩, ⟨163, 5⟩, ⟨195, 5⟩, ⟨227, 5⟩, ⟨258, 0⟩]

def distanceSpans : Array Span :=
  #[⟨1, 0⟩, ⟨2, 0⟩, ⟨3, 0⟩, ⟨4, 0⟩, ⟨5, 1⟩, ⟨7, 1⟩, ⟨9, 2⟩, ⟨13, 2⟩, ⟨17, 3⟩, ⟨25, 3⟩, ⟨33, 4⟩,
    ⟨49, 4⟩, ⟨65, 5⟩, ⟨97, 5⟩, ⟨129, 6⟩, ⟨193, 6⟩, ⟨257, 7⟩, ⟨385, 7⟩, ⟨513, 8⟩, ⟨769, 8⟩,
    ⟨1025, 9⟩, ⟨1537, 9⟩, ⟨2049, 10⟩, ⟨3073, 10⟩, ⟨4097, 11⟩, ⟨6145, 11⟩, ⟨8193, 12⟩,
    ⟨12289, 12⟩, ⟨16385, 13⟩, ⟨24577, 13⟩]

def span (spans : Array Span) (symbol : Nat) : BitReader Nat :=
  match spans[symbol]? with
  | some span => do
    let extra ← BitReader.number span.extra
    return span.base + extra
  | none => throw .corrupt

/-- The byte `distance` before the end of `out`. What would lie before its first byte is zero, as if
the stream had been preceded by a window of zeros. -/
def earlier (distance : Nat) (out : ByteArray) : UInt8 :=
  if out.size < distance then 0 else out[out.size - distance]?.getD 0

def copy (distance : Nat) : (length : Nat) → ByteArray → ByteArray
  | 0, out => out
  | length + 1, out => copy distance length (out.push (earlier distance out))

structure Codes where
  literal : CodeTree
  distance : CodeTree

/-- Reads one symbol of a block onto `out`; false when it ends the block. -/
def item (codes : Codes) (out : ByteArray) : BitReader (ByteArray × Bool) := do
  let symbol ← BitReader.symbol codes.literal
  if symbol < 256 then
    return (out.push (UInt8.ofNat symbol), true)
  else if symbol = 256 then
    return (out, false)
  else
    let length ← span lengthSpans (symbol - 257)
    let distance ← span distanceSpans (← BitReader.symbol codes.distance)
    return (copy distance length out, true)

/-- Reads the symbols of a block. Every symbol takes at least one bit, so `fuel` is enough if it is
more than the bits of the stream. -/
def items (codes : Codes) : (fuel : Nat) → ByteArray → BitReader ByteArray
  | 0, _ => throw .incomplete
  | fuel + 1, out => do
    let (out, more) ← item codes out
    if more then items codes fuel out else return out

/-- A stored block: two lengths that must be complements, then bytes. -/
def stored (out : ByteArray) : BitReader ByteArray := do
  BitReader.align
  let length ← BitReader.number 16
  let complement ← BitReader.number 16
  if length + complement ≠ 0xFFFF then throw .corrupt
  let bits ← get
  let start := bits.taken / 8
  if bits.data.size < start + length then throw .incomplete
  set { bits with taken := (start + length) * 8 }
  return out ++ bits.data.extract start (start + length)

def fixedLiteralLengths : List Nat :=
  List.replicate 144 8 ++ List.replicate 112 9 ++ List.replicate 24 7 ++ List.replicate 8 8

def fixedDistanceLengths : List Nat := List.replicate 32 5

def codesOf (literalLengths distanceLengths : List Nat) : BitReader Codes :=
  match CodeTree.ofLengths? true literalLengths, CodeTree.ofLengths? true distanceLengths with
  | some literal, some distance => return ⟨literal, distance⟩
  | _, _ => throw .corrupt

def lengthOrder : List Nat :=
  [16, 17, 18, 0, 8, 7, 9, 6, 10, 5, 11, 4, 12, 3, 13, 2, 14, 1, 15]

def placedLengths : List Nat → BitReader (List (Nat × Nat))
  | [] => return []
  | place :: order => do
    let length ← BitReader.number 3
    return (place, length) :: (← placedLengths order)

/-- What a symbol of the code length code adds to the lengths in `done` (latest first). Symbols up
to 15 are lengths; 16 repeats the last one, 17 and 18 repeat zero. -/
def lengthRun (done : List Nat) (symbol : Nat) : BitReader (List Nat) :=
  if symbol < 16 then return [symbol]
  else if symbol = 16 then
    match done with
    | [] => throw .corrupt
    | last :: _ => do return List.replicate (3 + (← BitReader.number 2)) last
  else if symbol = 17 then do return List.replicate (3 + (← BitReader.number 3)) 0
  else do return List.replicate (11 + (← BitReader.number 7)) 0

/-- Reads code lengths onto `done` until there are `wanted`. A repetition must not run over. -/
def codeLengths (code : CodeTree) (wanted : Nat) : (fuel : Nat) → List Nat → BitReader (List Nat)
  | 0, _ => throw .corrupt
  | fuel + 1, done => do
    if done.length = wanted then return done.reverse
    let symbol ← BitReader.symbol code
    let more ← lengthRun done symbol
    if wanted < done.length + more.length then throw .corrupt
    codeLengths code wanted fuel (more ++ done)

def ownCodes : BitReader Codes := do
  let literals := 257 + (← BitReader.number 5)
  let distances := 1 + (← BitReader.number 5)
  let given := 4 + (← BitReader.number 4)
  if 286 < literals || 30 < distances then throw .corrupt
  let placed ← placedLengths (lengthOrder.take given)
  let lengths := (List.range 19).map fun symbol => (placed.lookup symbol).getD 0
  match CodeTree.ofLengths? false lengths with
  | none => throw .corrupt
  | some code =>
    let all ← codeLengths code (literals + distances) (literals + distances + 1) []
    codesOf (all.take literals) (all.drop literals)

def block (fuel : Nat) (out : ByteArray) : BitReader (ByteArray × Bool) := do
  let final ← BitReader.bit
  let out ← match ← BitReader.number 2 with
    | 0 => stored out
    | 1 => do items (← codesOf fixedLiteralLengths fixedDistanceLengths) fuel out
    | 2 => do items (← ownCodes) fuel out
    | _ => throw .corrupt
  return (out, !final)

/-- Reads blocks up to the final one. Every block takes at least three bits. -/
def blocks (itemFuel : Nat) : (fuel : Nat) → ByteArray → BitReader ByteArray
  | 0, _ => throw .incomplete
  | fuel + 1, out => do
    let (out, more) ← block itemFuel out
    if more then blocks itemFuel fuel out else return out

def inflate (data : ByteArray) : Except Fault ByteArray :=
  let fuel := data.size * 8 + 1
  ((blocks fuel fuel .empty).run ⟨data, 0⟩).map (·.1)

end JarCensus.Zip.Inflate
