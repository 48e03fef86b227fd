import JarCensus.MethodIndex.Basic
import JarCensus.Resolution

/-! How often a set of classes calls the methods of other archives. Every call is counted as the one
signature that its resolver gives. -/
namespace JarCensus

/-- Calls per signature. A signature without calls has no entry. -/
abbrev UsageCount := Std.ExtTreeMap Signature Nat

structure CallSite where
  className : String
  methodName : String
  call : Invocation
  deriving DecidableEq, Repr

/-- The calls of `classes`, in class, method and instruction order. -/
def callSites (classes : List ClassFile) : List CallSite :=
  classes.flatMap fun cls => cls.methods.flatMap fun method =>
    method.invocations.map fun call => ⟨cls.name, method.name, call⟩

def CallSite.target (resolver : Resolver) (known : SignatureSet) (site : CallSite) :
    Except Failure Signature :=
  formatDuring (.callTarget site.call site.className site.methodName)
    (resolver.resolve known site.call)

/-- One more call of `target`, if it is known and not one of the scanned classes' own. -/
def UsageCount.record (own known : SignatureSet) (counts : UsageCount) (target : Signature) :
    UsageCount :=
  if target ∈ known ∧ target ∉ own then counts.insert target (counts.getD target 0 + 1) else counts

def countUsage (classes : List ClassFile) (own known : SignatureSet) (resolver : Resolver) :
    Except Failure UsageCount :=
  (callSites classes).foldlM (fun counts site => do
    let target ← site.target resolver known
    return UsageCount.record own known counts target) ∅

/-- Counts the uses of indexed methods by the classes of `archive`. What the archive itself declares
is taken from the index if it is filed there under its name, and from its classes otherwise. -/
def MethodIndex.analyze (index : MethodIndex) (resolution : Resolution) (archive : String)
    (classes : List ClassFile) : Except Failure UsageCount := do
  let own ← match index.declaredIn archive with
    | some own => pure own
    | none => declaredMethods classes
  countUsage classes own index.all (resolution.resolver classes)

end JarCensus
