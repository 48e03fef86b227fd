import JarCensus.MethodIndex.Basic
import JarCensus.Proofs.Results

/-! What classes declare, and indexes by the history of what was filed in them. -/
namespace JarCensus

theorem foldlM_declare_eq_ok_iff (methods : List Method) (before declared : SignatureSet) :
    methods.foldlM (fun declared method => do
        let signature ← formatDuring (.declaration method.owner method.name) method.signature
        return declared.insert signature) before = .ok declared ↔
      (∀ method ∈ methods, ∃ signature, method.signature = .ok signature) ∧
      ∀ signature, signature ∈ declared ↔
        signature ∈ before ∨ ∃ method ∈ methods, method.signature = .ok signature := by
  induction methods generalizing before with
  | nil =>
    simp only [List.foldlM_nil, pure, Except.pure, Except.ok.injEq, List.not_mem_nil,
      false_implies, implies_true, true_and, false_and, exists_false, or_false]
    constructor
    · rintro rfl signature
      rfl
    · intro same
      exact Std.ExtTreeSet.ext_mem fun signature => (same signature).symm
  | cons method methods ih =>
    -- the signature at the front is in the set before the others are
    have front {first : Signature} (named : method.signature = .ok first) (signature : Signature) :
        (signature ∈ before.insert first ∨
            ∃ other ∈ methods, other.signature = .ok signature) ↔
          signature ∈ before ∨ method.signature = .ok signature ∨
            ∃ other ∈ methods, other.signature = .ok signature := by
      rw [Std.ExtTreeSet.mem_insert, Std.compare_eq_iff_eq, named, Except.ok.injEq, or_assoc,
        or_left_comm]
    simp only [List.foldlM_cons, bind_eq_ok_iff, formatDuring_eq_ok_iff, pure, Except.pure,
      Except.ok.injEq, List.mem_cons, forall_eq_or_imp, exists_eq_or_imp]
    constructor
    · rintro ⟨_, ⟨first, named, rfl⟩, rest⟩
      obtain ⟨others, members⟩ := (ih _).mp rest
      refine ⟨⟨⟨first, named⟩, others⟩, fun signature => ?_⟩
      rw [members, front named]
    · rintro ⟨⟨⟨first, named⟩, others⟩, members⟩
      refine ⟨_, ⟨first, named, rfl⟩, (ih _).mpr ⟨others, fun signature => ?_⟩⟩
      rw [members, front named]

/-- Classes can be indexed exactly if each of their methods has a signature, and these are then what
they declare. -/
theorem declaredMethods_eq_ok_iff (classes : List ClassFile) (declared : SignatureSet) :
    declaredMethods classes = .ok declared ↔
      (∀ method ∈ classes.flatMap ClassFile.methods,
        ∃ signature, method.signature = .ok signature) ∧
      ∀ signature, signature ∈ declared ↔
        ∃ method ∈ classes.flatMap ClassFile.methods, method.signature = .ok signature := by
  rw [declaredMethods, foldlM_declare_eq_ok_iff]
  simp only [Std.ExtTreeSet.not_mem_empty, false_or]

/-- What was filed and under which name, earliest first. -/
abbrev Filings := List (String × SignatureSet)

/-- The set that was filed last under `archive`. -/
def Filings.last? (filings : Filings) (archive : String) : Option SignatureSet :=
  filings.reverse.lookup archive

/-- If no name is filed twice, the last set under a name is the only one. -/
theorem Filings.last?_eq_some_iff {filings : Filings}
    (distinct : (filings.map Prod.fst).Nodup) (archive : String) (methods : SignatureSet) :
    filings.last? archive = some methods ↔ (archive, methods) ∈ filings := by
  rw [Filings.last?, List.lookup_eq_some_iff]
  constructor
  · rintro ⟨after, before, split, -⟩
    rw [← List.mem_reverse, split]
    exact List.mem_append_right after (.head before)
  · intro member
    obtain ⟨before, after, split⟩ := List.append_of_mem member
    refine ⟨after.reverse, before.reverse, by simp [split], ?_⟩
    intro entry later
    have different : archive ∉ after.map Prod.fst := by
      rw [split, List.map_append, List.map_cons, List.nodup_append] at distinct
      exact (List.nodup_cons.mp distinct.2.1).1
    rw [bne_iff_ne]
    rintro rfl
    exact different (List.mem_map_of_mem (List.mem_reverse.mp later))

namespace MethodIndex

/-- The index that filings lead to from `index`. -/
def fileAll (index : MethodIndex) (filings : Filings) : MethodIndex :=
  filings.foldl (fun index (archive, methods) => index.insert archive methods) index

theorem declaredIn_empty (archive : String) : empty.declaredIn archive = none := by
  simp [empty, declaredIn]

theorem declaredIn_insert (index : MethodIndex) (archive other : String) (methods : SignatureSet) :
    (index.insert archive methods).declaredIn other =
      if other = archive then some methods else index.declaredIn other := by
  have filed : (index.insert archive methods).byArchive =
      index.byArchive.insert archive methods := by
    rw [insert]
    split <;> rfl
  rw [declaredIn, filed, Std.ExtTreeMap.getElem?_insert]
  by_cases same : other = archive
  · simp [same]
  · simp [same, Ne.symm same, declaredIn]

/-- Under a name that was filed stands the last set filed there; other names are as they were. -/
theorem declaredIn_fileAll (index : MethodIndex) (filings : Filings) (archive : String) :
    (index.fileAll filings).declaredIn archive =
      (filings.last? archive).or (index.declaredIn archive) := by
  induction filings generalizing index with
  | nil => rfl
  | cons filing filings ih =>
    obtain ⟨name, methods⟩ := filing
    rw [fileAll, List.foldl_cons, ← fileAll, ih, declaredIn_insert]
    rw [Filings.last?, Filings.last?, List.reverse_cons, List.lookup_append, Option.or_assoc]
    by_cases same : archive = name
    · simp [same]
    · have other : (archive == name) = false := beq_false_of_ne same
      simp [same, other, List.lookup_cons]

theorem declaredIn_fileAll_empty (filings : Filings) (archive : String) :
    (empty.fileAll filings).declaredIn archive = filings.last? archive := by
  rw [declaredIn_fileAll, declaredIn_empty, Option.or_none]

theorem mem_foldl_union_iff (entries : List (String × SignatureSet)) (all : SignatureSet)
    (signature : Signature) :
    signature ∈ entries.foldl (fun all entry => all ∪ entry.2) all ↔
      signature ∈ all ∨ ∃ entry ∈ entries, signature ∈ entry.2 := by
  induction entries generalizing all with
  | nil => simp
  | cons entry entries ih =>
    rw [List.foldl_cons, ih, Std.ExtTreeSet.mem_union_iff]
    simp [or_assoc]

theorem mem_union_iff (byArchive : Std.ExtTreeMap String SignatureSet) (signature : Signature) :
    signature ∈ union byArchive ↔
      ∃ (archive : String) (methods : SignatureSet),
        byArchive[archive]? = some methods ∧ signature ∈ methods := by
  rw [union, Std.ExtTreeMap.foldl_eq_foldl_toList, mem_foldl_union_iff]
  simp [Std.ExtTreeMap.mem_toList_iff_getElem?_eq_some]

/-- What any archive declares is what some archive has filed under its name. -/
def Consistent (index : MethodIndex) : Prop :=
  ∀ signature, signature ∈ index.all ↔
    ∃ archive methods, index.declaredIn archive = some methods ∧ signature ∈ methods

theorem consistent_empty : empty.Consistent := by
  intro signature
  simp [empty, declaredIn]

theorem Consistent.insert {index : MethodIndex} (consistent : index.Consistent) (archive : String)
    (methods : SignatureSet) : (index.insert archive methods).Consistent := by
  by_cases filed : archive ∈ index.byArchive
  · have shape : index.insert archive methods =
        ⟨index.byArchive.insert archive methods,
          union (index.byArchive.insert archive methods)⟩ := if_pos filed
    intro signature
    rw [shape]
    exact mem_union_iff _ signature
  · have all : (index.insert archive methods).all = index.all ∪ methods := by
      rw [MethodIndex.insert, if_neg filed]
    have unfiled : index.declaredIn archive = none := Std.ExtTreeMap.getElem?_eq_none filed
    intro signature
    rw [all, Std.ExtTreeSet.mem_union_iff, consistent signature]
    simp only [declaredIn_insert]
    constructor
    · rintro (⟨other, others, there, member⟩ | member)
      · have different : other ≠ archive := by
          rintro rfl
          simp [unfiled] at there
        exact ⟨other, others, by rw [if_neg different, there], member⟩
      · exact ⟨archive, methods, if_pos rfl, member⟩
    · rintro ⟨other, others, there, member⟩
      split at there
      · obtain rfl := Option.some.inj there
        exact .inr member
      · exact .inl ⟨other, others, there, member⟩

theorem Consistent.fileAll {index : MethodIndex} (consistent : index.Consistent)
    (filings : Filings) : (index.fileAll filings).Consistent := by
  induction filings generalizing index with
  | nil => exact consistent
  | cons filing filings ih => exact ih (consistent.insert filing.1 filing.2)

theorem mem_all_fileAll_empty_iff (filings : Filings) (signature : Signature) :
    signature ∈ (empty.fileAll filings).all ↔
      ∃ archive methods, filings.last? archive = some methods ∧ signature ∈ methods := by
  rw [consistent_empty.fileAll filings signature]
  simp only [declaredIn_fileAll_empty]

theorem all_insert_empty (archive : String) (methods : SignatureSet) :
    (empty.insert archive methods).all = methods := by
  apply Std.ExtTreeSet.ext_mem
  simp [insert, empty]

end MethodIndex

end JarCensus
