import JarCensus.Proofs.Agreement
import Mathlib.Data.List.Chain
import Mathlib.Data.List.Nodup

/-! The order of ranked entries. A table that is looked up by hash gives its entries in an order of
its own; ranked, they stand in one order only, which their counts and signatures decide. -/
namespace JarCensus

open MethodUsage (Outranks)

/-- `entries` is all that `counts` holds, in some order: each signature once, with its count. -/
structure UsageCount.Lists (counts : UsageCount) (entries : List MethodUsage) : Prop where
  once : (entries.map MethodUsage.signature).Nodup
  members : ∀ usage, usage ∈ entries ↔ counts[usage.signature]? = some usage.count

/-- The order of bytes is the order of code points. -/
theorem precedes_iff (a b : Signature) :
    Precedes a b ↔ a.toList.map Char.toNat < b.toList.map Char.toNat := by
  rw [Precedes, Text.Utf8.encode_lt_encode_iff, Text.Utf8.map_toNat_lt_iff]

theorem MethodUsage.Outranks.precedes {a b : MethodUsage} (above : a.Outranks b) :
    b.count < a.count ∨ a.count = b.count ∧ Precedes a.signature b.signature := by
  rcases above with more | ⟨same, smaller⟩
  · exact .inl more
  · exact .inr ⟨same, Text.Utf8.encode_lt_encode smaller⟩

namespace UsageCount.Lists

variable {counts : UsageCount} {entries others : List MethodUsage}

theorem nodup (lists : counts.Lists entries) : entries.Nodup := List.Nodup.of_map _ lists.once

theorem of_perm (lists : counts.Lists entries) (perm : others.Perm entries) :
    counts.Lists others where
  once := (perm.map MethodUsage.signature).nodup_iff.mpr lists.once
  members usage := perm.mem_iff.trans (lists.members usage)

/-- Ranking leaves nothing of the order that the entries were given in. -/
theorem rank_eq_ranked (lists : counts.Lists entries) : rank entries = counts.ranked := by
  have ranked : counts.Lists (rank entries) := lists.of_perm (List.mergeSort_perm _ _)
  refine ((counts.ranked_eq_iff (rank entries)).mpr ⟨ranked.members, ?_⟩).symm
  exact rank_outranks lists.nodup

end UsageCount.Lists

/-- Ranking rearranges the entries of a count, each signature staying once and with its count, so
that of two neighbours the first one has more calls, or as many and the signature that is smaller
byte by byte, which is to say code point by code point. What comes out is the same for every order
that the entries can be given in, and has the signatures that are listed by themselves. -/
theorem rank_settles_order {counts : UsageCount} {entries : List MethodUsage}
    (lists : counts.Lists entries) :
    (rank entries).Perm entries ∧ counts.Lists (rank entries) ∧
    (rank entries).IsChain (fun a b =>
      b.count < a.count ∨ a.count = b.count ∧ Precedes a.signature b.signature) ∧
    (∀ a b : Signature, Precedes a b ↔ a.toList.map Char.toNat < b.toList.map Char.toNat) ∧
    rank entries = counts.ranked ∧
    (∀ others, counts.Lists others → rank others = rank entries) ∧
    ∀ archive, ((rank entries).map MethodUsage.signature).Perm
      (ArchiveUsage.mk archive counts).signatures := by
  have perm : (rank entries).Perm entries := List.mergeSort_perm _ _
  have settled : rank entries = counts.ranked := lists.rank_eq_ranked
  refine ⟨perm, lists.of_perm perm, ?_, precedes_iff, settled, ?_, ?_⟩
  · exact ((rank_outranks lists.nodup).imp Outranks.precedes).isChain
  · intro others otherwise
    rw [otherwise.rank_eq_ranked, settled]
  · intro archive
    rw [settled]
    exact (signatures_perm_ranked counts).symm

/-- Two methods that are called equally often, one of them with a name outside ASCII. -/
def tiedCounts : UsageCount :=
  ((Std.ExtTreeMap.empty.insert "a#é()" 2).insert "c#z()" 5).insert "a#z()" 2

theorem rank_tiedCounts :
    tiedCounts.Lists [⟨"a#é()", 2⟩, ⟨"a#z()", 2⟩, ⟨"c#z()", 5⟩] ∧
      rank [⟨"a#é()", 2⟩, ⟨"a#z()", 2⟩, ⟨"c#z()", 5⟩] =
        [⟨"c#z()", 5⟩, ⟨"a#z()", 2⟩, ⟨"a#é()", 2⟩] := by
  have members (usage : MethodUsage) :
      usage ∈ [⟨"c#z()", 5⟩, ⟨"a#z()", 2⟩, ⟨"a#é()", 2⟩] ↔
        tiedCounts[usage.signature]? = some usage.count := by
    obtain ⟨signature, count⟩ := usage
    simp only [tiedCounts, Std.ExtTreeMap.getElem?_insert]
    grind
  have inRank : tiedCounts.Lists [⟨"c#z()", 5⟩, ⟨"a#z()", 2⟩, ⟨"a#é()", 2⟩] :=
    ⟨by decide, members⟩
  have lists : tiedCounts.Lists [⟨"a#é()", 2⟩, ⟨"a#z()", 2⟩, ⟨"c#z()", 5⟩] :=
    inRank.of_perm (by decide)
  refine ⟨lists, ?_⟩
  obtain ⟨-, -, -, -, settled, -⟩ := rank_settles_order lists
  have ordered : List.Pairwise Outranks [⟨"c#z()", 5⟩, ⟨"a#z()", 2⟩, ⟨"a#é()", 2⟩] := by
    unfold Outranks
    decide
  rw [settled, UsageCount.ranked_eq_iff]
  exact ⟨members, ordered⟩

end JarCensus
