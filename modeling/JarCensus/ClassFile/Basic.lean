/-! What is kept of a compiled class: its name and supertypes and, for each method, the
instructions of its body. Class names are dotted; descriptors are kept as written. -/
namespace JarCensus

/-- The four instructions that call a method through a method reference. -/
inductive InvokeKind where
  | virtual
  | special
  | static
  | interface
  deriving DecidableEq, Repr

structure Invocation where
  kind : InvokeKind
  owner : String
  name : String
  descriptor : String
  deriving DecidableEq, Repr

inductive Instruction where
  | invocation (call : Invocation)
  /-- Any other opcode; its operands are dropped. -/
  | other (opcode : UInt8)
  deriving DecidableEq, Repr

def Instruction.call? : Instruction → Option Invocation
  | .invocation call => some call
  | .other _ => none

/-- A declared method. `owner` is the declaring class. -/
structure Method where
  owner : String
  access : UInt16
  name : String
  descriptor : String
  instructions : List Instruction
  deriving DecidableEq, Repr

def Method.invocations (method : Method) : List Invocation :=
  method.instructions.filterMap Instruction.call?

structure ClassFile where
  minor : UInt16
  major : UInt16
  access : UInt16
  name : String
  superName : Option String
  interfaces : List String
  methods : List Method
  deriving DecidableEq, Repr

/-- A class name with dots where its internal form has slashes. -/
def dotted (name : String) : String :=
  String.ofList (name.toList.map fun c => if c = '/' then '.' else c)

end JarCensus
