import JarCensus.ClassFile.Basic
import JarCensus.FormatError

/-! Argument types of a method descriptor: `(`, a sequence of types, `)`, and a return type that is
never looked at. A type is some number of `[` before a one-letter code or before `L name ;`. -/
namespace JarCensus

inductive Primitive where
  | void
  | boolean
  | char
  | byte
  | short
  | int
  | float
  | long
  | double
  deriving DecidableEq, Repr

namespace Primitive

def code : Primitive → Char
  | .void => 'V'
  | .boolean => 'Z'
  | .char => 'C'
  | .byte => 'B'
  | .short => 'S'
  | .int => 'I'
  | .float => 'F'
  | .long => 'J'
  | .double => 'D'

def keyword : Primitive → String
  | .void => "void"
  | .boolean => "boolean"
  | .char => "char"
  | .byte => "byte"
  | .short => "short"
  | .int => "int"
  | .float => "float"
  | .long => "long"
  | .double => "double"

def all : List Primitive :=
  [.void, .boolean, .char, .byte, .short, .int, .float, .long, .double]

def ofCode? (c : Char) : Option Primitive := all.find? (·.code = c)

end Primitive

/-- What an array finally holds. A class keeps the spelling of its descriptor. -/
inductive ElementType where
  | primitive (type : Primitive)
  | reference (name : List Char)
  deriving DecidableEq, Repr

structure ArgumentType where
  dimensions : Nat
  element : ElementType
  deriving DecidableEq, Repr

namespace ArgumentType

def elementName : ElementType → List Char
  | .primitive type => type.keyword.toList
  | .reference name => name.map fun c => if c = '/' then '.' else c

/-- The type as signatures show it: a keyword or a dotted class name, then `[]` for each
dimension. -/
def render (type : ArgumentType) : String :=
  String.ofList (elementName type.element ++ (List.replicate type.dimensions ['[', ']']).flatten)

def spell (type : ArgumentType) : List Char :=
  List.replicate type.dimensions '[' ++
    match type.element with
    | .primitive type => [type.code]
    | .reference name => 'L' :: name ++ [';']

end ArgumentType

namespace Descriptor

/-- Where a scan of types stands: before an element, or within a class name whose characters so
far are `name`, latest first. -/
inductive Position where
  | element (dimensions : Nat)
  | within (dimensions : Nat) (name : List Char)
  deriving DecidableEq, Repr

def typesFrom (done : List ArgumentType) : Position → List Char → Option (List ArgumentType)
  | .element 0, [] => some done.reverse
  | .element (_ + 1), [] => none
  | .within _ _, [] => none
  | .element dimensions, c :: rest =>
    if c = '[' then typesFrom done (.element (dimensions + 1)) rest
    else if c = 'L' then typesFrom done (.within dimensions []) rest
    else match Primitive.ofCode? c with
      | some type => typesFrom (⟨dimensions, .primitive type⟩ :: done) (.element 0) rest
      | none => none
  | .within dimensions name, c :: rest =>
    if c = ';' then
      if name.isEmpty then none
      else typesFrom (⟨dimensions, .reference name.reverse⟩ :: done) (.element 0) rest
    else typesFrom done (.within dimensions (c :: name)) rest

def types? (text : List Char) : Option (List ArgumentType) := typesFrom [] (.element 0) text

/-- The argument types of a descriptor: those between `(` and the first `)`. -/
def arguments? (descriptor : List Char) : Option (List ArgumentType) :=
  match descriptor with
  | '(' :: rest =>
    match rest.dropWhile (· != ')') with
    | [] => none
    | _ :: _ => types? (rest.takeWhile (· != ')'))
  | _ => none

def argumentTypes (descriptor : String) : Except FormatError (List String) :=
  match arguments? descriptor.toList with
  | some types => .ok (types.map ArgumentType.render)
  | none => .error (.badDescriptor descriptor)

end Descriptor

end JarCensus
