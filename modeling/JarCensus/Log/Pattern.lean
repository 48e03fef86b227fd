import JarCensus.Text.Alphanumeric
import JarCensus.Text.Blank
import JarCensus.Text.Numeral

/-! Regular expressions that the value of a span's field may have to match. No event lies in a span,
so none is ever matched, but a filter is refused if it holds one that cannot be read.

A pattern cannot hold a closing brace, since that ends the list of fields; so nothing that needs one
is readable. Neither is what needs tables of Unicode properties: shorthand classes, word boundaries
and letter case are for ASCII only. -/
namespace JarCensus.Log.Pattern

structure Modes where
  /-- Blanks and comments are passed over. -/
  spaced : Bool
  /-- The pattern speaks of characters rather than of bytes. -/
  unicode : Bool
  /-- Upper and lower case are the same. -/
  caseless : Bool
  deriving DecidableEq, Repr

namespace Modes

def initial : Modes := ⟨false, true, false⟩

/-- The modes after a list of letters: those before a `-` are switched on, those after it off. -/
def switch (modes : Modes) (letters : List Char) : Modes :=
  let on := letters.takeWhile (· != '-')
  let off := letters.drop on.length
  let mode (letter : Char) (before : Bool) : Bool :=
    if on.contains letter then true else if off.contains letter then false else before
  ⟨mode 'x' modes.spaced, mode 'u' modes.unicode, mode 'i' modes.caseless⟩

end Modes

/-- Passes over blanks and comments. A comment goes from `#` to the end of its line. -/
def skipBlanks (inComment : Bool) : List Char → List Char
  | [] => []
  | c :: rest =>
    if inComment then skipBlanks (c != '\n') rest
    else if Text.isBlank c then skipBlanks false rest
    else if c = '#' then skipBlanks true rest
    else c :: rest

def skip (modes : Modes) (text : List Char) : List Char :=
  if modes.spaced then skipBlanks false text else text

inductive Escape where
  /-- A character, which may be given as one byte. -/
  | literal (c : Char) (isByte : Bool)
  /-- A class with a name of one letter, or all characters outside of it. -/
  | shorthand (negated : Bool)
  | wordBoundary
  /-- The beginning or the end of the text. -/
  | textBoundary
  deriving DecidableEq, Repr

def namedCharacters : List (Char × Char) :=
  [('a', '\x07'), ('f', '\x0c'), ('t', '\t'), ('n', '\n'), ('r', '\r'), ('v', '\x0b')]

def isEscapable (c : Char) : Bool :=
  c.toNat < 0x80 && !c.isAlphanum && c != '<' && c != '>'

def hexadecimal? (modes : Modes) : (count value : Nat) → List Char → Option (Nat × List Char)
  | 0, value, text => some (value, text)
  | count + 1, value, text =>
    match skip modes text with
    | [] => none
    | c :: rest => (Text.hexValue? c).bind fun digit =>
      hexadecimal? modes count (value * 16 + digit) rest

def codePoint? (modes : Modes) (count : Nat) (text : List Char) : Option (Escape × List Char) :=
  (hexadecimal? modes count 0 text).bind fun found =>
    if found.1.isValidChar then some (.literal (Char.ofNat found.1) (count = 2), found.2) else none

def escape? (modes : Modes) : List Char → Option (Escape × List Char)
  | [] => none
  | c :: rest =>
    if c = 'x' then codePoint? modes 2 rest
    else if c = 'u' then codePoint? modes 4 rest
    else if c = 'U' then codePoint? modes 8 rest
    else if isEscapable c then some (.literal c false, rest)
    else if ['d', 's', 'w'].contains c then some (.shorthand false, rest)
    else if ['D', 'S', 'W'].contains c then some (.shorthand true, rest)
    else if ['b', 'B', '<', '>'].contains c then some (.wordBoundary, rest)
    else if ['A', 'z'].contains c then some (.textBoundary, rest)
    else (namedCharacters.lookup c).map fun named => (.literal named false, rest)

def acceptsLiteral (modes : Modes) (c : Char) (isByte : Bool) : Bool :=
  if modes.unicode then !modes.caseless else !isByte || c.toNat < 0x80

/-- Whether a shorthand class may be used: only where bytes are meant, and if it is a class of ASCII
characters. -/
def acceptsShorthand (modes : Modes) (negated : Bool) : Bool := !modes.unicode && !negated

def acceptsEscape (modes : Modes) : Escape → Bool
  | .literal c isByte => acceptsLiteral modes c isByte
  | .shorthand negated => acceptsShorthand modes negated
  | .wordBoundary => !modes.unicode
  | .textBoundary => true

def member? (modes : Modes) : List Char → Option (Option Char × List Char)
  | [] => none
  | '\\' :: rest =>
    match escape? modes rest with
    | some (.literal c _, rest) =>
      if modes.unicode || c.toNat < 0x80 then some (some c, rest) else none
    | some (.shorthand negated, rest) =>
      if acceptsShorthand modes negated then some (none, rest) else none
    | _ => none
  | c :: rest => if modes.unicode || c.toNat < 0x80 then some (some c, rest) else none

/-- Reads a member of a class or a range of characters. A dash before a bracket or another dash
makes no range. -/
def memberOrRange? (modes : Modes) (text : List Char) : Option (List Char) := do
  let (low, rest) ← member? modes text
  match skip modes rest with
  | [] => none
  | '-' :: after =>
    match skip modes after with
    | [] => none
    | ']' :: _ => some ('-' :: after)
    | '-' :: _ => some ('-' :: after)
    | upper => do
      let (high, rest) ← member? modes upper
      match low, high with
      | some low, some high => if low ≤ high then some rest else none
      | _, _ => none
  | rest => some rest

def asciiClassNames : List String :=
  ["alnum", "alpha", "ascii", "blank", "cntrl", "digit", "graph", "lower", "print", "punct",
    "space", "upper", "word", "xdigit"]

/-- Reads a named class, after its opening bracket; also says whether it is negated. -/
def asciiClass? : List Char → Option (Bool × List Char)
  | ':' :: rest =>
    let negated := rest.head? = some '^'
    let named := if negated then rest.tail else rest
    let name := named.takeWhile (· != ':')
    match named.drop name.length with
    | ':' :: ']' :: after =>
      if asciiClassNames.contains (String.ofList name) then some (negated, after) else none
    | _ => none
  | _ => none

inductive ClassProgress where
  /-- Nothing has been read, so that a bracket does not close the class. -/
  | opened
  /-- Only dashes, which stand for themselves. -/
  | dashes
  | members
  deriving DecidableEq, Repr

/-- Reads the opening of a class, after its bracket. A class of bytes cannot be negated, for then it
would not be one of ASCII characters. -/
def classOpening? (modes : Modes) (text : List Char) : Option (List Char) :=
  match skip modes text with
  | '^' :: rest => if modes.unicode then some rest else none
  | rest => some rest

/-- Reads a class to its end, with `depth` classes around it. Every step takes a character, so more
`fuel` than characters is enough. -/
def classEnd? (modes : Modes) :
    (fuel depth : Nat) → ClassProgress → List Char → Option (List Char)
  | 0, _, _, _ => none
  | fuel + 1, depth, progress, text =>
    match skip modes text with
    | [] => none
    | c :: rest =>
      if c = '-' && progress != .members then classEnd? modes fuel depth .dashes rest
      else if c = ']' && progress = .opened then classEnd? modes fuel depth .members rest
      else if c = ']' then
        match depth with
        | 0 => some rest
        | depth + 1 => classEnd? modes fuel depth .members rest
      else if c = '[' then
        match asciiClass? rest with
        | some (negated, after) =>
          if negated && !modes.unicode then none else classEnd? modes fuel depth .members after
        | none => (classOpening? modes rest).bind fun inner =>
          classEnd? modes fuel (depth + 1) .opened inner
      else if ['&', '-', '~'].contains c && rest.head? = some c then
        classEnd? modes fuel depth .members rest.tail
      else (memberOrRange? modes (c :: rest)).bind fun rest =>
        classEnd? modes fuel depth .members rest

def bracketed? (modes : Modes) (text : List Char) : Option (List Char) :=
  if modes.unicode && modes.caseless then none
  else (classOpening? modes text).bind fun inner =>
    classEnd? modes (inner.length + 1) 0 .opened inner

inductive Opening where
  /-- Other modes, up to the end of the group they stand in. -/
  | modes (after : Modes)
  | group (inner : Modes) (name : Option (List Char))

def isGroupName : List Char → Bool
  | [] => false
  | first :: rest =>
    (first = '_' || Text.isAlphabetic first) &&
      rest.all fun c => ['_', '.', '[', ']'].contains c || Text.isAlphanumeric c

def namedGroup? (modes : Modes) (text : List Char) : Option (Opening × List Char) :=
  let name := text.takeWhile (· != '>')
  match text.drop name.length with
  | [] => none
  | _ :: rest => if isGroupName name then some (.group modes (some name), rest) else none

def modeLetters : List Char := ['i', 'm', 's', 'U', 'u', 'R', 'x', '-']

/-- Whether letters can switch modes: each at most once, and something after a `-`. -/
def isModeSwitch (letters : List Char) : Bool :=
  letters.all modeLetters.contains && letters.Nodup && letters.getLast? != some '-'

/-- Reads letters that switch modes, for the rest of the group or for a group of their own. -/
def modeSwitch? (modes : Modes) (text : List Char) : Option (Opening × List Char) :=
  let letters := text.takeWhile fun c => c != ':' && c != ')'
  if !isModeSwitch letters then none
  else match text.drop letters.length with
    | ':' :: rest => some (.group (modes.switch letters) none, rest)
    | ')' :: rest => if letters.isEmpty then none else some (.modes (modes.switch letters), rest)
    | _ => none

def opening? (modes : Modes) (text : List Char) : Option (Opening × List Char) :=
  match skip modes text with
  | '?' :: 'P' :: '<' :: rest => namedGroup? modes rest
  | '?' :: '<' :: rest => namedGroup? modes rest
  | '?' :: rest => modeSwitch? modes rest
  | rest => some (.group modes none, rest)

structure Progress where
  modes : Modes
  /-- The modes around each open group, innermost first. -/
  around : List Modes
  /-- Names of groups. -/
  names : List (List Char)
  /-- Whether there is something that can be repeated. -/
  repeatable : Bool

namespace Progress

def initial : Progress := ⟨.initial, [], [], false⟩

def item (progress : Progress) : Progress := { progress with repeatable := true }

def fresh (progress : Progress) : Progress := { progress with repeatable := false }

/-- The progress after an opening parenthesis. Two groups must not have one name. -/
def enter? (progress : Progress) : Opening → Option Progress
  | .modes after => some { progress.fresh with modes := after }
  | .group inner none =>
    some { progress.fresh with modes := inner, around := progress.modes :: progress.around }
  | .group inner (some name) =>
    if progress.names.contains name then none
    else some ⟨inner, progress.modes :: progress.around, name :: progress.names, false⟩

def leave? (progress : Progress) : Option Progress :=
  match progress.around with
  | [] => none
  | outer :: around => some ⟨outer, around, progress.names, true⟩

end Progress

def step? (progress : Progress) (c : Char) (rest : List Char) : Option (Progress × List Char) :=
  let modes := progress.modes
  let item (accepted : Bool) (rest : List Char) : Option (Progress × List Char) :=
    if accepted then some (progress.item, rest) else none
  if c = '(' then do
    let (opening, rest) ← opening? modes rest
    return (← progress.enter? opening, rest)
  else if c = ')' then progress.leave?.map (·, rest)
  else if c = '|' then some (progress.fresh, rest)
  else if c = '[' then (bracketed? modes rest).bind (item true)
  else if ['?', '*', '+'].contains c then item progress.repeatable rest
  else if c = '\x7b' then none
  else if c = '\\' then do
    let (escape, rest) ← escape? modes rest
    item (acceptsEscape modes escape) rest
  else if c = '.' then item modes.unicode rest
  else if c = '^' || c = '$' then item true rest
  else item (acceptsLiteral modes c false) rest

/-- Whether a pattern can be read to its end. Every step takes a character, so more `fuel` than
characters is enough. -/
def readableFrom : (fuel : Nat) → Progress → List Char → Bool
  | 0, _, _ => false
  | fuel + 1, progress, text =>
    match skip progress.modes text with
    | [] => progress.around.isEmpty
    | c :: rest =>
      match step? progress c rest with
      | some (progress, rest) => readableFrom fuel progress rest
      | none => false

def isReadable (pattern : List Char) : Bool :=
  readableFrom (pattern.length + 1) .initial pattern

end JarCensus.Log.Pattern
