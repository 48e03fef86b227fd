import JarCensus.Hierarchy
import JarCensus.Signature

/-! Which signature a call is counted as: the one it names, or the nearest known one among the
supertypes of the owner it names. -/
namespace JarCensus

inductive Resolution where
  | exact
  | hierarchy
  deriving DecidableEq, Repr

/-- A resolution together with what it needs of the scanned classes. -/
inductive Resolver where
  | exact
  | hierarchy (types : Hierarchy)

def Resolution.resolver (resolution : Resolution) (classes : List ClassFile) : Resolver :=
  match resolution with
  | .exact => .exact
  | .hierarchy => .hierarchy (.ofClasses classes)

namespace Resolver

/-- The first known signature of a method over `owners`; `fallback` when there is none. Owners
after that one are not looked at. -/
def firstKnown (known : SignatureSet) (name descriptor : String) (fallback : Signature) :
    List String → Except FormatError Signature
  | [] => .ok fallback
  | owner :: owners => do
    let candidate ← Signature.canonical owner name descriptor
    if candidate ∈ known then return candidate
    firstKnown known name descriptor fallback owners

/-- The signature that `call` is counted as. A call whose own signature is known is never moved to
a supertype, and one with no known signature keeps its own. -/
def resolve (resolver : Resolver) (known : SignatureSet) (call : Invocation) :
    Except FormatError Signature := do
  let own ← call.signature
  match resolver with
  | .exact => return own
  | .hierarchy types =>
    if own ∈ known then return own
    firstKnown known call.name call.descriptor own ((types.ancestors call.owner).drop 1)

end Resolver

end JarCensus
