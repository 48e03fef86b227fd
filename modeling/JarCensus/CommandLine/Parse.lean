import JarCensus.CommandLine.Basic

/-! Reading the command line. Options and places (arguments without a name) mix freely until `--`.
A value given in an argument of its own is held back until the next argument that starts
something, so a fault in it is reported after a fault in the shape of what follows. -/
namespace JarCensus.CommandLine

inductive Key where
  | verbose
  | config
  | help
  | format
  | resolve
  | output
  | threads
  | checkerJar
  | classpath
  | processor
  deriving DecidableEq, Repr

namespace Key

def long : Key → String
  | .verbose => "verbose"
  | .config => "config"
  | .help => "help"
  | .format => "format"
  | .resolve => "resolve"
  | .output => "output"
  | .threads => "threads"
  | .checkerJar => "checker-jar"
  | .classpath => "classpath"
  | .processor => "processor"

def short? : Key → Option Char
  | .help => some 'h'
  | .format => some 'f'
  | .output => some 'o'
  | _ => none

def isFlag : Key → Bool
  | .verbose | .help => true
  | _ => false

end Key

def formatOf? (text : String) : Option OutputFormat :=
  if text = "text" then some .text else if text = "json" then some .json else none

def resolutionOf? (text : String) : Option Resolution :=
  if text = "exact" then some .exact else if text = "hierarchy" then some .hierarchy else none

/-- A path only has to be nonempty. -/
def pathOf? (text : String) : Option Path := if text = "" then none else some (.ofString text)

def digitsFrom (value : Nat) : List Char → Option Nat
  | [] => some value
  | c :: rest =>
    if '0' ≤ c ∧ c ≤ '9' then digitsFrom (value * 10 + (c.toNat - '0'.toNat)) rest else none

/-- A number below 2^64: decimal digits, at least one, after an optional `+`. -/
def numberOf? (text : String) : Option Nat :=
  let digits := match text.toList with
    | '+' :: rest => rest
    | all => all
  if digits.isEmpty then none
  else (digitsFrom 0 digits).filter (· < Nat.pow 2 64)

def checkValue (key : Key) (value : String) : Except UsageError Unit :=
  match key with
  | .verbose | .help | .classpath | .processor => .ok ()
  | .config | .output | .checkerJar =>
    if (pathOf? value).isSome then .ok () else .error .invalidValue
  | .format => if (formatOf? value).isSome then .ok () else .error .invalidValue
  | .resolve => if (resolutionOf? value).isSome then .ok () else .error .invalidValue
  | .threads => if (numberOf? value).isSome then .ok () else .error .invalidNumber

inductive Pending where
  | option (key : Key) (value : Option String)
  | place (value : String)
  deriving DecidableEq, Repr

structure Given where
  options : List (Key × String) := []
  places : List String := []
  pending : Option Pending := none
  deriving DecidableEq, Repr

namespace Given

def has (given : Given) (key : Key) : Bool := given.options.any (·.1 = key)

def value? (given : Given) (key : Key) : Option String :=
  (given.options.find? (·.1 = key)).map (·.2)

def accept (given : Given) (key : Key) (value : String) : Except UsageError Given := do
  if given.has key then throw .repeatedOption
  checkValue key value
  return { given with options := given.options ++ [(key, value)] }

def settle (given : Given) : Except UsageError Given :=
  let settled := { given with pending := none }
  match given.pending with
  | none => .ok settled
  | some (.option _ none) => .error .invalidValue
  | some (.option key (some value)) => settled.accept key value
  | some (.place value) =>
    if value = "" then .error .invalidValue
    else .ok { settled with places := settled.places ++ [value] }

/-- A flag takes effect at once, and asking for help ends the reading. -/
def flag (given : Given) (key : Key) : Except UsageError Given := do
  let given ← given.settle
  if key = .help then throw .helpRequested
  given.accept key ""

def attached (given : Given) (key : Key) (value : String) : Except UsageError Given := do
  (← given.settle).accept key value

def opened (given : Given) (key : Key) : Except UsageError Given := do
  return { (← given.settle) with pending := some (.option key none) }

/-- How many places have been given, the pending one included. -/
def placeCount (given : Given) : Nat :=
  given.places.length + match given.pending with
    | some (.place _) => 1
    | _ => 0

end Given

/-- What one level understands: its options, how many places it has, and its commands. -/
structure Level where
  keys : List Key
  places : Nat
  commands : List String

def Level.longKey? (level : Level) (name : String) : Option Key :=
  level.keys.find? (·.long = name)

def Level.shortKey? (level : Level) (letter : Char) : Option Key :=
  level.keys.find? (·.short? = some letter)

def readLong (level : Level) (given : Given) (argument : List Char) : Except UsageError Given :=
  let name := argument.takeWhile (· != '=')
  match level.longKey? (String.ofList name), argument.dropWhile (· != '=') with
  | none, _ => .error .unknownArgument
  | some key, [] => if key.isFlag then given.flag key else given.opened key
  | some key, _ :: value =>
    if key.isFlag then .error .surplusValue else given.attached key (String.ofList value)

/-- The letters of an argument `-abc`. The first letter that takes a value takes what follows it,
an `=` aside. -/
def readShort (level : Level) (given : Given) : List Char → Except UsageError Given
  | [] => .ok given
  | letter :: rest =>
    match level.shortKey? letter with
    | none => .error .unknownArgument
    | some key =>
      if key.isFlag then do
        let given ← given.flag key
        readShort level given rest
      else match rest with
        | [] => given.opened key
        | '=' :: value => given.attached key (String.ofList value)
        | value => given.attached key (String.ofList value)

def surplus (level : Level) (afterDashes : Bool) (argument : String) : UsageError :=
  if level.commands.isEmpty then .unknownArgument
  else if afterDashes && level.commands.contains argument then .unknownArgument
  else .unknownCommand

def readPlace (level : Level) (given : Given) (afterDashes : Bool) (argument : String) :
    Except UsageError Given :=
  if given.placeCount < level.places then do
    return { (← given.settle) with pending := some (.place argument) }
  else .error (surplus level afterDashes argument)

/-- Reads arguments of one level up to a command, which ends the level and is returned with what
follows it. -/
def readLevel (level : Level) : (given : Given) → (afterDashes : Bool) → List String →
    Except UsageError (Given × Option (String × List String))
  | given, _, [] => .ok (given, none)
  | given, true, argument :: rest => do
    readLevel level (← readPlace level given true argument) true rest
  | given, false, argument :: rest =>
    let waiting : Option Key := match given.pending with
      | some (.option key none) => some key
      | _ => none
    if waiting.isNone && level.commands.contains argument then
      .ok (given, some (argument, rest))
    else match argument.toList with
      | ['-', '-'] => readLevel level given true rest
      | '-' :: '-' :: name => do readLevel level (← readLong level given name) false rest
      | '-' :: letter :: letters => do
        readLevel level (← readShort level given (letter :: letters)) false rest
      | _ =>
        match waiting with
        | some key =>
          readLevel level { given with pending := some (.option key (some argument)) } false rest
        | none => do readLevel level (← readPlace level given false argument) false rest

def sharedKeys : List Key := [.verbose, .config, .help]

def topLevel : Level := ⟨sharedKeys, 0, ["compare", "cross-usage", "check", "help"]⟩

def compareLevel : Level := ⟨[.format, .resolve] ++ sharedKeys, 2, []⟩

def crossUsageLevel : Level := ⟨[.output, .threads, .resolve] ++ sharedKeys, 2, []⟩

def checkLevel : Level := ⟨[.checkerJar, .classpath, .processor] ++ sharedKeys, 1, []⟩

def readCommand (level : Level) (arguments : List String) : Except UsageError Given := do
  let (given, _) ← readLevel level {} false arguments
  let given ← given.settle
  if given.places.length < level.places then throw .missingArgument
  return given

def resolutionIn (given : Given) : Resolution :=
  ((given.value? .resolve).bind resolutionOf?).getD .exact

def commandOf? (name : String) (given : Given) : Option Command :=
  match name, given.places with
  | "compare", [source, dest] =>
    some (.compare (.ofString source) (.ofString dest)
      (((given.value? .format).bind formatOf?).getD .text) (resolutionIn given))
  | "cross-usage", [source, dest] =>
    some (.crossUsage (.ofString source) (.ofString dest) ((given.value? .output).bind pathOf?)
      ((given.value? .threads).bind numberOf?) (resolutionIn given))
  | "check", [source] =>
    some (.check (.ofString source)
      { checkerJar := (given.value? .checkerJar).bind pathOf?
        classpath := given.value? .classpath
        processors := given.value? .processor })
  | _, _ => none

def levelOf? (name : String) : Option Level :=
  match name with
  | "compare" => some compareLevel
  | "cross-usage" => some crossUsageLevel
  | "check" => some checkLevel
  | _ => none

/-- What follows `help` names at most one command. -/
def helpFor (arguments : List String) : UsageError :=
  match arguments with
  | [] => .helpRequested
  | [name] => if topLevel.commands.contains name then .helpRequested else .unknownCommand
  | _ => .unknownCommand

/-- Reads a command line without the program's name. An option given both before and after the
command has the value given after it. -/
def parse (arguments : List String) : Except UsageError Options := do
  let (outer, command?) ← readLevel topLevel {} false arguments
  match command? with
  | none =>
    let outer ← outer.settle
    throw (if outer.options.isEmpty then .nothingGiven else .missingCommand)
  | some (name, rest) =>
    match levelOf? name with
    | none => throw (helpFor rest)
    | some level =>
      let inner ← readCommand level rest
      let outer ← outer.settle
      match commandOf? name inner with
      | none => throw .missingArgument
      | some command =>
        let config := (inner.value? .config).orElse fun _ => outer.value? .config
        return {
          verbose := outer.has .verbose || inner.has .verbose
          config := config.bind pathOf?
          command }

end JarCensus.CommandLine
