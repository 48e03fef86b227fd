import JarCensus.Log.Event
import JarCensus.Log.Pattern
import JarCensus.Text.Search

/-! Which events are shown. A filter is a list of directives, each a level for the targets that
begin with a given text and, possibly, for events with a given field; the most specific directive
that applies to an event decides. -/
namespace JarCensus.Log

/-- Shows events of `target` that have `field`, up to the level with rank `limit`; a limit of zero
shows none. -/
structure Directive where
  target : List Char
  field : Option (List Char)
  limit : Nat
  deriving DecidableEq, Repr

namespace Directive

def applies (directive : Directive) (event : Event) : Bool :=
  directive.target.isPrefixOf event.target.toList &&
    directive.field.all fun name => event.fields.contains (String.ofList name)

def fieldLess : Option (List Char) → Option (List Char) → Bool
  | _, none => false
  | none, some _ => true
  | some name, some other => name < other

/-- Whether the first of two directives is less specific: it has a shorter target, or one as long
and a less specific field. -/
def less (directive other : Directive) : Bool :=
  directive.target.length < other.target.length ||
    (directive.target.length = other.target.length && fieldLess directive.field other.field)

end Directive

abbrev Filter := List Directive

namespace Filter

def upTo (level : Level) : Filter := [⟨[], none, level.rank⟩]

/-- The more specific of two directives; of equally specific ones the later. -/
def moreSpecific (best : Option Directive) (directive : Directive) : Option Directive :=
  match best with
  | none => some directive
  | some other => if directive.less other then some other else some directive

def deciding? (filter : Filter) (event : Event) : Option Directive :=
  (filter.filter (·.applies event)).foldl moreSpecific none

/-- Whether an event is shown. An event to which no directive applies is not. -/
def shows (filter : Filter) (event : Event) : Bool :=
  match filter.deciding? event with
  | some directive => event.level.rank ≤ directive.limit
  | none => false

def levelNames : List (String × Nat) :=
  [("off", 0), ("error", 1), ("warn", 2), ("info", 3), ("debug", 4), ("trace", 5)]

def digits? (text : List Char) : Option Nat :=
  let digits := match text with
    | '+' :: rest => rest
    | all => all
  if digits.isEmpty || !digits.all Text.isDigit then none
  else some (digits.foldl (fun n c => n * 10 + (c.toNat - '0'.toNat)) 0)

def limit? (text : List Char) : Option Nat :=
  match digits? text with
  | some n => if n ≤ 5 then some n else none
  | none => levelNames.lookup (String.ofList (text.map Char.toLower))

def unlimited : Nat := 5

def assigned? (text : List Char) : Option Nat :=
  if text.isEmpty then some unlimited else limit? text

def isExponent : List Char → Bool
  | [] => true
  | mark :: rest =>
    let digits := if rest.head? = some '+' || rest.head? = some '-' then rest.tail else rest
    mark.toLower = 'e' && !digits.isEmpty && digits.all Text.isDigit

/-- Digits with at most one point among or around them, and possibly an exponent. -/
def isDecimal (text : List Char) : Bool :=
  let whole := text.takeWhile Text.isDigit
  match text.drop whole.length with
  | '.' :: rest =>
    let places := rest.takeWhile Text.isDigit
    !(whole.isEmpty && places.isEmpty) && isExponent (rest.drop places.length)
  | rest => !whole.isEmpty && isExponent rest

def isNumber (text : List Char) : Bool :=
  let unsigned := if text.head? = some '+' || text.head? = some '-' then text.tail else text
  isDecimal unsigned ||
    ["inf", "infinity", "nan"].contains (String.ofList (unsigned.map Char.toLower))

/-- Reads what is asked of a field: `some name` if only that it is there, `none` if it has to have a
value, which is a number or a pattern. What follows a second `=` does not count. -/
def fieldTest? (text : List Char) : Option (Option (List Char)) :=
  if text.isEmpty then none
  else match Text.pieces (· = '=') text with
    | _ :: value :: _ => if isNumber value || Pattern.isReadable value then some none else none
    | _ => some (some text)

def width (text : List Char) : Nat := (Text.Utf8.encode text).length

def between? (text : List Char) (start stop : Nat) : Option (List Char) :=
  Text.Utf8.decode? (((Text.Utf8.encode text).take stop).drop start)

def ending? (text : List Char) (start : Nat) : List Char → Option Nat
  | [] => some unlimited
  | '=' :: _ => (between? text (start + 1) (width text)).bind assigned?
  | _ => none

/-- Reads the brackets of a directive, which open at the place `start`, and its end. They name a
span, ask something of a field, or both. No event lies in a span, and only spans have fields with
values to filter by; so only a field that has to be there leaves a directive. -/
def bracketed? (text : List Char) (start : Nat) (inside : List Char) : Option (List Directive) :=
  let name := inside.takeWhile fun c => c != ']' && c != '\x7b'
  let place := start + 1 + width name + 1
  match inside.drop name.length with
  | ']' :: rest => (ending? text place rest).map fun _ => []
  | _ :: inner =>
    let asked := inner.takeWhile (· != '\x7d')
    match inner.drop asked.length with
    | _ :: ']' :: rest => do
      let target ← between? text 0 start
      let test ← fieldTest? (← between? text place (place + width asked))
      let limit ← ending? text (place + width asked + 2) rest
      match test with
      | some field => return if name.isEmpty then [⟨target, some field, limit⟩] else []
      | none => return []
    | _ => none
  | [] => none

def beginsDirective (c : Char) : Bool :=
  c = '[' || c = '-' || c = ':' || c = '_' || Text.isAlphanumeric c

/-- Reads one directive: a level, a target, or either of them with brackets and a level. White space
around a directive has no part in its shape; but the places that are found in the shape are then
looked up in the text as it was given. -/
def readDirective (text : List Char) : Option (List Directive) :=
  match Text.trim text with
  | [] => none
  | first :: rest =>
    if !beginsDirective first then none
    else
      let shape := first :: rest
      let head := shape.takeWhile fun c => c != '=' && c != '['
      match shape.drop head.length with
      | [] =>
        match limit? text with
        | some limit => some [⟨[], none, limit⟩]
        | none => some [⟨text, none, unlimited⟩]
      | '[' :: inside => bracketed? text (width head) inside
      | ending => do
        let target ← between? text 0 (width head)
        let limit ← ending? text (width head) ending
        return [⟨target, none, limit⟩]

/-- Reads directives between commas; empty ones are passed over, and without any only errors are
shown. -/
def parse? (text : String) : Option Filter := do
  let parts := (Text.pieces (· = ',') text.toList).filter (!·.isEmpty)
  if parts.isEmpty then return upTo .error
  let directives ← parts.mapM readDirective
  return directives.flatten

def variableName : String := "RUST_LOG"

/-- The filter in force: the one given if it can be read, otherwise the one for the chosen
verbosity. -/
def choose (given : Option String) (verbose : Bool) : Filter :=
  (given.bind parse?).getD (upTo (if verbose then .debug else .warn))

end Filter

end JarCensus.Log
