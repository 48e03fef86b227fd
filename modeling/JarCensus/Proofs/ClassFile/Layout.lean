import JarCensus.ClassFile.Decode
import JarCensus.Proofs.ClassFile.ModifiedUtf8
import JarCensus.Proofs.ClassFile.Reads

/-! Class files as their format describes them, field by field and nothing dropped, and the bytes
that they are written as. `ClassLayout.Valid` says when counts, lengths and references are in order,
`ClassLayout.projection` what is kept of a class file. -/
namespace JarCensus.ClassFile

open ModifiedUtf8 (Group)
open Reader (encodeTable ValidTable)

/-- A constant of the pool with all that is written of it. Texts are sequences of groups, so every
text that can be formed is well formed. -/
inductive Entry where
  | utf8 (groups : List Group)
  | integer (word : UInt32)
  | float (word : UInt32)
  | long (high low : UInt32)
  | double (high low : UInt32)
  | classInfo (name : UInt16)
  | string (text : UInt16)
  | fieldRef (owner nameAndType : UInt16)
  | methodRef (owner nameAndType : UInt16)
  | interfaceMethodRef (owner nameAndType : UInt16)
  | nameAndType (name descriptor : UInt16)
  | methodHandle (kind : UInt8) (reference : UInt16)
  | methodType (descriptor : UInt16)
  | dynamic (bootstrap nameAndType : UInt16)
  | invokeDynamic (bootstrap nameAndType : UInt16)
  | moduleInfo (name : UInt16)
  | packageInfo (name : UInt16)
  deriving DecidableEq, Repr

namespace Entry

def tag : Entry → Tag
  | .utf8 _ => .utf8
  | .integer _ => .integer
  | .float _ => .float
  | .long _ _ => .long
  | .double _ _ => .double
  | .classInfo _ => .classInfo
  | .string _ => .string
  | .fieldRef _ _ => .fieldRef
  | .methodRef _ _ => .methodRef
  | .interfaceMethodRef _ _ => .interfaceMethodRef
  | .nameAndType _ _ => .nameAndType
  | .methodHandle _ _ => .methodHandle
  | .methodType _ => .methodType
  | .dynamic _ _ => .dynamic
  | .invokeDynamic _ _ => .invokeDynamic
  | .moduleInfo _ => .moduleInfo
  | .packageInfo _ => .packageInfo

/-- What follows the tag. -/
def payload : Entry → List UInt8
  | .utf8 groups =>
    bytes16 (UInt16.ofNat (ModifiedUtf8.encode groups).length) ++ ModifiedUtf8.encode groups
  | .integer word | .float word => bytes32 word
  | .long high low | .double high low => bytes32 high ++ bytes32 low
  | .classInfo index | .string index | .methodType index | .moduleInfo index
  | .packageInfo index => bytes16 index
  | .fieldRef first second | .methodRef first second | .interfaceMethodRef first second
  | .nameAndType first second | .dynamic first second | .invokeDynamic first second =>
    bytes16 first ++ bytes16 second
  | .methodHandle kind reference => kind :: bytes16 reference

def encode (entry : Entry) : List UInt8 := entry.tag.byte :: entry.payload

/-- The length of a text has sixteen bits. -/
def Valid : Entry → Prop
  | .utf8 groups => (ModifiedUtf8.encode groups).length < 2 ^ 16
  | _ => True

/-- What names and calls need of a constant. -/
def constant : Entry → Constant
  | .utf8 groups => .utf8 (ModifiedUtf8.text groups)
  | .classInfo name => .classInfo name
  | .methodRef owner pair | .interfaceMethodRef owner pair => .methodRef owner pair
  | .nameAndType name descriptor => .nameAndType name descriptor
  | _ => .other

/-- The slots that a constant takes: longs and doubles also block the one after theirs. -/
def slots (entry : Entry) : List (Option Constant) :=
  if entry.tag.isWide then [some entry.constant, none] else [some entry.constant]

end Entry

namespace ConstantPool

/-- The pool that a list of constants fills, from slot one on. -/
def ofEntries (entries : List Entry) : ConstantPool :=
  ⟨(none :: entries.flatMap Entry.slots).toArray⟩

/-- The text at `index`, if a text stands there. -/
def text? (pool : ConstantPool) (index : UInt16) : Option String :=
  match pool.slots[index.toNat]? with
  | some (some (.utf8 text)) => some text
  | _ => none

/-- The name of the class at `index`, if a class stands there and its name is a text. -/
def className? (pool : ConstantPool) (index : UInt16) : Option String :=
  match pool.slots[index.toNat]? with
  | some (some (.classInfo name)) => pool.text? name
  | _ => none

end ConstantPool

/-- An attribute of any kind. -/
structure Attribute where
  name : UInt16
  body : List UInt8
  deriving DecidableEq, Repr

namespace Attribute

def encode (item : Attribute) : List UInt8 :=
  bytes16 item.name ++ bytes32 (UInt32.ofNat item.body.length) ++ item.body

def Valid (item : Attribute) : Prop := item.body.length < 2 ^ 32

end Attribute

structure FieldLayout where
  access : UInt16
  name : UInt16
  descriptor : UInt16
  attributes : List Attribute
  deriving DecidableEq, Repr

namespace FieldLayout

def encode (field : FieldLayout) : List UInt8 :=
  bytes16 field.access ++ bytes16 field.name ++ bytes16 field.descriptor ++
    encodeTable Attribute.encode field.attributes

def Valid (field : FieldLayout) : Prop := ValidTable Attribute.Valid field.attributes

end FieldLayout

/-- A row of an exception table. -/
structure Handler where
  first : UInt16
  last : UInt16
  target : UInt16
  catchType : UInt16
  deriving DecidableEq, Repr

def Handler.encode (handler : Handler) : List UInt8 :=
  bytes16 handler.first ++ bytes16 handler.last ++ bytes16 handler.target ++
    bytes16 handler.catchType

/-- The body of a `Code` attribute. Bytes may follow its own attributes. -/
structure CodeBody where
  maxStack : UInt16
  maxLocals : UInt16
  code : List UInt8
  handlers : List Handler
  attributes : List Attribute
  trailing : List UInt8
  deriving DecidableEq, Repr

namespace CodeBody

/-- The parts of a body that have a meaning. -/
def encodeParts (body : CodeBody) : List UInt8 :=
  bytes16 body.maxStack ++ bytes16 body.maxLocals ++ bytes32 (UInt32.ofNat body.code.length) ++
    body.code ++ encodeTable Handler.encode body.handlers ++
    encodeTable Attribute.encode body.attributes

def encode (body : CodeBody) : List UInt8 := body.encodeParts ++ body.trailing

structure Valid (body : CodeBody) : Prop where
  code : body.code.length < 2 ^ 32
  handlers : body.handlers.length < 2 ^ 16
  attributes : ValidTable Attribute.Valid body.attributes

end CodeBody

/-- An attribute of a method: its code, or something else. -/
inductive MethodAttribute where
  | code (name : UInt16) (body : CodeBody)
  | other (item : Attribute)
  deriving DecidableEq, Repr

namespace MethodAttribute

def asAttribute : MethodAttribute → Attribute
  | .code name body => ⟨name, body.encode⟩
  | .other item => item

def encode (item : MethodAttribute) : List UInt8 := item.asAttribute.encode

/-- Every name is a text; code is what has the name `Code`, and it can be cut into instructions. -/
def Valid (pool : ConstantPool) (item : MethodAttribute) : Prop :=
  item.asAttribute.Valid ∧
    match item with
    | .code name body => pool.text? name = some "Code" ∧ body.Valid ∧
        ∃ instructions, decodeInstructions pool body.code = .ok instructions
    | .other item => ∃ name, pool.text? item.name = some name ∧ name ≠ "Code"

/-- The instructions of a code attribute. -/
def instructions? (pool : ConstantPool) : MethodAttribute → Option (List Instruction)
  | .code _ body => (decodeInstructions pool body.code).toOption
  | .other _ => none

end MethodAttribute

structure MethodLayout where
  access : UInt16
  name : UInt16
  descriptor : UInt16
  attributes : List MethodAttribute
  deriving DecidableEq, Repr

namespace MethodLayout

def encode (method : MethodLayout) : List UInt8 :=
  bytes16 method.access ++ bytes16 method.name ++ bytes16 method.descriptor ++
    encodeTable MethodAttribute.encode method.attributes

structure Valid (pool : ConstantPool) (method : MethodLayout) : Prop where
  name : (pool.text? method.name).isSome
  descriptor : (pool.text? method.descriptor).isSome
  attributes : ValidTable (MethodAttribute.Valid pool) method.attributes

/-- What is kept of a method: the instructions are those of its last code attribute. -/
def projection (pool : ConstantPool) (owner : String) (method : MethodLayout) : Method where
  owner := owner
  access := method.access
  name := (pool.text? method.name).getD ""
  descriptor := (pool.text? method.descriptor).getD ""
  instructions :=
    ((method.attributes.filterMap (MethodAttribute.instructions? pool)).getLast?).getD []

end MethodLayout

/-- A class file up to its methods; what follows them is not looked at. -/
structure ClassLayout where
  minor : UInt16
  major : UInt16
  constants : List Entry
  access : UInt16
  thisClass : UInt16
  superClass : UInt16
  interfaces : List UInt16
  fields : List FieldLayout
  methods : List MethodLayout
  deriving DecidableEq, Repr

namespace ClassLayout

def pool (layout : ClassLayout) : ConstantPool := .ofEntries layout.constants

/-- How many slots the constants take. -/
def poolSize (layout : ClassLayout) : Nat := (layout.constants.flatMap Entry.slots).length

/-- The parts in their order. The count of the pool includes slot zero. -/
def encodeParts (layout : ClassLayout) : List UInt8 :=
  bytes16 layout.minor ++ bytes16 layout.major ++
    bytes16 (UInt16.ofNat (layout.poolSize + 1)) ++ layout.constants.flatMap Entry.encode ++
    bytes16 layout.access ++ bytes16 layout.thisClass ++ bytes16 layout.superClass ++
    encodeTable bytes16 layout.interfaces ++ encodeTable FieldLayout.encode layout.fields ++
    encodeTable MethodLayout.encode layout.methods

def encode (layout : ClassLayout) : List UInt8 := bytes32 magic ++ layout.encodeParts

/-- Sizes fit their fields, and what is referred to is there and of its kind. A superclass of index
zero is no reference. -/
structure Valid (layout : ClassLayout) : Prop where
  poolSize : layout.poolSize + 1 < 2 ^ 16
  constants : ∀ entry ∈ layout.constants, entry.Valid
  thisClass : (layout.pool.className? layout.thisClass).isSome
  superClass : layout.superClass = 0 ∨ (layout.pool.className? layout.superClass).isSome
  interfaces : ValidTable (fun index => (layout.pool.className? index).isSome) layout.interfaces
  fields : ValidTable FieldLayout.Valid layout.fields
  methods : ValidTable (MethodLayout.Valid layout.pool) layout.methods

/-- The dotted name of the class at an index. -/
def className (layout : ClassLayout) (index : UInt16) : String :=
  dotted ((layout.pool.className? index).getD "")

/-- What is kept of a class file. -/
def projection (layout : ClassLayout) : ClassFile where
  minor := layout.minor
  major := layout.major
  access := layout.access
  name := layout.className layout.thisClass
  superName := if layout.superClass = 0 then none else some (layout.className layout.superClass)
  interfaces := layout.interfaces.map layout.className
  methods :=
    layout.methods.map (MethodLayout.projection layout.pool (layout.className layout.thisClass))

end ClassLayout

end JarCensus.ClassFile
