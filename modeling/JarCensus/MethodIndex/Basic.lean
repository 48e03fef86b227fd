import JarCensus.Failure
import JarCensus.Signature
import Std.Data.ExtTreeMap

/-! Declared methods by archive name, with the union of all of them at hand. -/
namespace JarCensus

/-- The signatures of the methods that `classes` declare; bodies play no part. -/
def declaredMethods (classes : List ClassFile) : Except Failure SignatureSet :=
  (classes.flatMap ClassFile.methods).foldlM (fun declared method => do
    let signature ← formatDuring (.declaration method.owner method.name) method.signature
    return declared.insert signature) ∅

/-- The methods that each archive declares, and those that any archive declares. -/
structure MethodIndex where
  byArchive : Std.ExtTreeMap String SignatureSet
  all : SignatureSet

namespace MethodIndex

def empty : MethodIndex := ⟨∅, ∅⟩

def union (byArchive : Std.ExtTreeMap String SignatureSet) : SignatureSet :=
  byArchive.foldl (fun all _ methods => all ∪ methods) ∅

/-- Files `methods` under `archive`. A set filed earlier under that name is replaced, and what only
it declared leaves the union. -/
def insert (index : MethodIndex) (archive : String) (methods : SignatureSet) : MethodIndex :=
  let byArchive := index.byArchive.insert archive methods
  if archive ∈ index.byArchive then ⟨byArchive, union byArchive⟩
  else ⟨byArchive, index.all ∪ methods⟩

def declaredIn (index : MethodIndex) (archive : String) : Option SignatureSet :=
  index.byArchive[archive]?

def archiveCount (index : MethodIndex) : Nat := index.byArchive.size

end MethodIndex

end JarCensus
