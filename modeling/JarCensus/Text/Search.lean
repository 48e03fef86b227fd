/-! Searching, cutting and replacing in lists of characters or bytes. -/
namespace JarCensus.Text

variable {α : Type} [BEq α]

/-- The part of `text` from the first occurrence of `pattern` on. -/
def findFrom? (pattern : List α) : List α → Option (List α)
  | [] => if pattern.isEmpty then some [] else none
  | c :: rest =>
    if pattern.isPrefixOf (c :: rest) then some (c :: rest) else findFrom? pattern rest

/-- Replacement onto `done` (latest first), after passing over `skip` characters of an occurrence
that is already replaced. -/
def replaceFrom (pattern new : List α) (done : List α) : (skip : Nat) → List α → List α
  | _, [] => done.reverse
  | skip + 1, _ :: rest => replaceFrom pattern new done skip rest
  | 0, c :: rest =>
    if pattern.isPrefixOf (c :: rest) then
      replaceFrom pattern new (new.reverse ++ done) (pattern.length - 1) rest
    else replaceFrom pattern new (c :: done) 0 rest

/-- Every occurrence of a nonempty `pattern`, leftmost first and without overlap, replaced. -/
def replaceAll (pattern new text : List α) : List α := replaceFrom pattern new [] 0 text

def piecesFrom (isSeparator : α → Bool) (piece : List α) (done : List (List α)) :
    List α → List (List α)
  | [] => (piece.reverse :: done).reverse
  | c :: rest =>
    if isSeparator c then piecesFrom isSeparator [] (piece.reverse :: done) rest
    else piecesFrom isSeparator (c :: piece) done rest

/-- The pieces of `text` between separators, empty ones included; never the empty list. -/
def pieces (isSeparator : α → Bool) (text : List α) : List (List α) :=
  piecesFrom isSeparator [] [] text

def splitLast? (separator : α) (text : List α) : Option (List α × List α) :=
  match text.reverse.span (· != separator) with
  | (_, []) => none
  | (after, _ :: before) => some (before.reverse, after.reverse)

/-- What stands after the last `separator`; all of `text` when there is none. -/
def afterLast (separator : α) (text : List α) : List α :=
  (text.reverse.takeWhile (· != separator)).reverse

end JarCensus.Text
