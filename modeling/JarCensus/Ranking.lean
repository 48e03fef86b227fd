import JarCensus.UsageCount

/-! Usage counts as ordered lists: by rank, or by signature alone. -/
namespace JarCensus

structure MethodUsage where
  signature : Signature
  count : Nat
  deriving DecidableEq, Repr

def MethodUsage.line (usage : MethodUsage) : String :=
  usage.signature ++ " : " ++ Text.decimal usage.count

/-- More calls come first; of equally many, the smaller signature. -/
def MethodUsage.before (a b : MethodUsage) : Bool :=
  b.count < a.count || (a.count == b.count && a.signature ≤ b.signature)

def rank (usages : List MethodUsage) : List MethodUsage := usages.mergeSort MethodUsage.before

namespace UsageCount

def ranked (counts : UsageCount) : List MethodUsage :=
  rank (counts.toList.map fun (signature, count) => ⟨signature, count⟩)

def signatures (counts : UsageCount) : List Signature := counts.keys

end UsageCount

end JarCensus
