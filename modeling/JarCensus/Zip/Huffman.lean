/-! Canonical prefix codes given by their code lengths. -/
namespace JarCensus.Zip

/-- A prefix code as a tree: bits lead down to a symbol, or to where no code is. -/
inductive CodeTree where
  | vacant
  | leaf (symbol : Nat)
  | node (zero one : CodeTree)
  deriving DecidableEq, Repr

namespace CodeTree

def insert (symbol : Nat) : List Bool → CodeTree → CodeTree
  | [], _ => .leaf symbol
  | false :: path, .node zero one => .node (insert symbol path zero) one
  | true :: path, .node zero one => .node zero (insert symbol path one)
  | false :: path, _ => .node (insert symbol path .vacant) .vacant
  | true :: path, _ => .node .vacant (insert symbol path .vacant)

def path (code : Nat) : (length : Nat) → List Bool
  | 0 => []
  | length + 1 => code.testBit length :: path code length

def maxLength : Nat := 15

def symbolsOf (lengths : List Nat) (length : Nat) : List Nat :=
  lengths.zipIdx.filterMap fun (l, symbol) => if l = length then some symbol else none

def insertAll (length : Nat) : (next : Nat) → List Nat → CodeTree → CodeTree
  | _, [], tree => tree
  | next, symbol :: symbols, tree =>
    insertAll length (next + 1) symbols (insert symbol (path next length) tree)

/-- Puts the symbols of the lengths in `schedule` into the tree: codes of one length are
consecutive, and the first of a length follows the last of the length before, doubled. -/
def build (lengths : List Nat) : (schedule : List Nat) → (next : Nat) → CodeTree → CodeTree
  | [], _, tree => tree
  | length :: schedule, next, tree =>
    let symbols := symbolsOf lengths length
    build lengths schedule ((next + symbols.length) * 2) (insertAll length next symbols tree)

/-- The share of the code space that codes of these lengths fill, in units of 2^-15. -/
def filled (lengths : List Nat) : Nat :=
  (lengths.filter (0 < ·)).foldl (fun sum length => sum + Nat.pow 2 (maxLength - length)) 0

/-- Whether lengths describe a usable code: one that fills the code space exactly or, where
`partialAllowed`, one of no symbol or of one symbol with a single bit. -/
def usable (partialAllowed : Bool) (lengths : List Nat) : Bool :=
  filled lengths = Nat.pow 2 maxLength ||
    (partialAllowed && [[], [1]].contains (lengths.filter (0 < ·)))

/-- The code of a list of lengths; zero stands for an unused symbol. -/
def ofLengths? (partialAllowed : Bool) (lengths : List Nat) : Option CodeTree :=
  if usable partialAllowed lengths then
    some (build lengths (List.range' 1 maxLength) 0 (.node .vacant .vacant))
  else none

end CodeTree

end JarCensus.Zip
