import JarCensus.Ranking

/-! Ranked counts. More calls come first and ties go to the smaller signature, so the entries of a
count can stand in one order only. -/
namespace JarCensus

/-- More calls, or as many of a smaller signature. -/
def MethodUsage.Outranks (a b : MethodUsage) : Prop :=
  b.count < a.count ∨ a.count = b.count ∧ a.signature < b.signature

namespace MethodUsage

theorem before_iff (a b : MethodUsage) : a.before b = true ↔ a = b ∨ a.Outranks b := by
  obtain ⟨s, m⟩ := a
  obtain ⟨t, n⟩ := b
  simp only [before, Outranks, Bool.or_eq_true, Bool.and_eq_true, decide_eq_true_eq, beq_iff_eq,
    MethodUsage.mk.injEq, Std.le_iff_lt_or_eq]
  constructor
  · rintro (more | ⟨same, smaller | equal⟩)
    · exact .inr (.inl more)
    · exact .inr (.inr ⟨same, smaller⟩)
    · exact .inl ⟨equal, same⟩
  · rintro (⟨equal, same⟩ | more | ⟨same, smaller⟩)
    · exact .inr ⟨same, .inr equal⟩
    · exact .inl more
    · exact .inr ⟨same, .inl smaller⟩

theorem Outranks.trans {a b c : MethodUsage} (first : a.Outranks b) (second : b.Outranks c) :
    a.Outranks c := by
  rcases first with more | ⟨same, smaller⟩ <;> rcases second with more' | ⟨same', smaller'⟩
  · exact .inl (Nat.lt_trans more' more)
  · exact .inl (same' ▸ more)
  · exact .inl (same ▸ more')
  · exact .inr ⟨same.trans same', String.lt_trans smaller smaller'⟩

theorem Outranks.irrefl (a : MethodUsage) : ¬a.Outranks a := by
  rintro (more | ⟨_, smaller⟩)
  · exact Nat.lt_irrefl _ more
  · exact String.lt_irrefl _ smaller

theorem Outranks.trichotomy (a b : MethodUsage) : a = b ∨ a.Outranks b ∨ b.Outranks a := by
  rcases Nat.lt_trichotomy a.count b.count with fewer | same | more
  · exact .inr (.inr (.inl fewer))
  · rcases Std.lt_trichotomy a.signature b.signature with smaller | equal | larger
    · exact .inr (.inl (.inr ⟨same, smaller⟩))
    · obtain ⟨s, m⟩ := a
      obtain ⟨t, n⟩ := b
      simp only at same equal
      exact .inl (by rw [same, equal])
    · exact .inr (.inr (.inr ⟨same.symm, larger⟩))
  · exact .inr (.inl (.inl more))

theorem before_trans (a b c : MethodUsage) (first : a.before b = true)
    (second : b.before c = true) : a.before c = true := by
  rw [before_iff] at first second ⊢
  rcases first with rfl | first
  · exact second
  · rcases second with rfl | second
    · exact .inr first
    · exact .inr (first.trans second)

theorem before_total (a b : MethodUsage) : (a.before b || b.before a) = true := by
  rw [Bool.or_eq_true, before_iff, before_iff]
  rcases Outranks.trichotomy a b with equal | above | below
  · exact .inl (.inl equal)
  · exact .inl (.inr above)
  · exact .inr (.inr below)

end MethodUsage

open MethodUsage (Outranks)

/-- A list in strict order of rank is determined by its members. -/
theorem eq_of_outranks {usages usages' : List MethodUsage} (ordered : usages.Pairwise Outranks)
    (ordered' : usages'.Pairwise Outranks) (same : ∀ usage, usage ∈ usages ↔ usage ∈ usages') :
    usages = usages' := by
  have distinct {list : List MethodUsage} (ordered : list.Pairwise Outranks) : list.Nodup := by
    refine ordered.imp ?_
    rintro a b above rfl
    exact Outranks.irrefl a above
  have perm : usages.Perm usages' :=
    (List.perm_ext_iff_of_nodup (distinct ordered) (distinct ordered')).mpr same
  refine perm.eq_of_pairwise ?_ ordered ordered'
  intro a b _ _ above below
  exact absurd (above.trans below) (Outranks.irrefl a)

/-- Ranked entries stand in strict order if none comes twice. -/
theorem rank_outranks {usages : List MethodUsage} (distinct : usages.Nodup) :
    (rank usages).Pairwise Outranks := by
  have sorted : (rank usages).Pairwise (fun a b => a.before b = true) :=
    List.pairwise_mergeSort MethodUsage.before_trans MethodUsage.before_total _
  have distinct : (rank usages).Nodup := (List.mergeSort_perm _ _).nodup_iff.mpr distinct
  refine (sorted.and distinct).imp ?_
  rintro a b ⟨le, ne⟩
  exact ((MethodUsage.before_iff a b).mp le).resolve_left ne

namespace UsageCount

theorem mem_ranked_iff (counts : UsageCount) (usage : MethodUsage) :
    usage ∈ counts.ranked ↔ counts[usage.signature]? = some usage.count := by
  rw [ranked, rank, List.mem_mergeSort, List.mem_map,
    ← Std.ExtTreeMap.mem_toList_iff_getElem?_eq_some]
  constructor
  · rintro ⟨entry, member, rfl⟩
    exact member
  · intro member
    exact ⟨_, member, rfl⟩

/-- No two entries have one signature, so the order of ranks is strict. -/
theorem ranked_outranks (counts : UsageCount) : counts.ranked.Pairwise Outranks := by
  apply rank_outranks
  rw [List.Nodup, List.pairwise_map]
  refine Std.ExtTreeMap.distinct_keys_toList.imp ?_
  intro a b different equal
  rw [MethodUsage.mk.injEq] at equal
  exact different (Std.compare_eq_iff_eq.mpr equal.1)

theorem ranked_eq_iff (counts : UsageCount) (usages : List MethodUsage) :
    counts.ranked = usages ↔
      (∀ usage, usage ∈ usages ↔ counts[usage.signature]? = some usage.count) ∧
        usages.Pairwise Outranks := by
  constructor
  · rintro rfl
    exact ⟨counts.mem_ranked_iff, counts.ranked_outranks⟩
  · rintro ⟨members, ordered⟩
    refine eq_of_outranks counts.ranked_outranks ordered ?_
    intro usage
    rw [mem_ranked_iff, members]

end UsageCount

end JarCensus
