import JarCensus.Descriptor
import JarCensus.Text.Search
import Std.Data.ExtTreeSet

/-! Canonical signatures such as `java.util.Map#put(java.lang.Object, java.lang.Object)`: the
owner as a flat dotted path, the method's name and its argument types. The text is the only
identity that methods are matched by across archives; the return type has no part in it. -/
namespace JarCensus

abbrev Signature := String

abbrev SignatureSet := Std.ExtTreeSet Signature

namespace Signature

def constructorName : List Char := "<init>".toList

/-- Nested classes and packages alike are parts of a flat dotted path. -/
def flatten (head : List Char) : List Char :=
  head.map fun c => if c = '$' || c = '/' then '.' else c

/-- A constructor is shown under its owner's simple name. -/
def methodName (owner method : List Char) : List Char :=
  Text.replaceAll constructorName (Text.afterLast '.' owner) method

/-- The signature of an identifier `owner.method(…`. It is cut at its first `(`; what stands before
is flattened as a whole and cut again at its last dot, so a `$` in a method's name moves the part
before it into the owner. -/
def ofRaw (raw : String) : Except FormatError Signature := do
  let head := raw.toList.takeWhile (· != '(')
  let descriptor := raw.toList.dropWhile (· != '(')
  if descriptor.isEmpty then throw (.badDescriptor raw)
  let arguments ← Descriptor.argumentTypes (String.ofList descriptor)
  match Text.splitLast? '.' (flatten head) with
  | none => throw (.badDescriptor raw)
  | some (owner, method) =>
    return String.ofList owner ++ "#" ++ String.ofList (methodName owner method) ++ "(" ++
      String.intercalate ", " arguments ++ ")"

/-- The signature of a method by its owner (dotted or internal), name and raw descriptor. -/
def canonical (owner name descriptor : String) : Except FormatError Signature :=
  ofRaw (dotted owner ++ "." ++ name ++ descriptor)

end Signature

def Method.signature (method : Method) : Except FormatError Signature :=
  Signature.canonical method.owner method.name method.descriptor

def Invocation.signature (call : Invocation) : Except FormatError Signature :=
  Signature.canonical call.owner call.name call.descriptor

end JarCensus
