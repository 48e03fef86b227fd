import JarCensus.Proofs.MethodIndex
import Mathlib.Data.Finset.Card

/-! What an index shows after any history of filings. An index keeps its union up to date in one way
for new names and in another for names filed again; after every step the union is that of the sets
filed last, so histories that end alike lead to one index. -/
namespace JarCensus

theorem Filings.isSome_last?_iff (filings : Filings) (archive : String) :
    (filings.last? archive).isSome ↔ archive ∈ filings.map Prod.fst := by
  rw [Filings.last?, ← not_iff_not, Option.not_isSome_iff_eq_none, List.lookup_eq_none_iff]
  simp only [bne_iff_ne, List.mem_reverse, List.mem_map, not_exists, not_and]
  exact forall₂_congr fun filing _ => not_congr eq_comm

namespace MethodIndex

/-- The index shows what the filings leave behind. -/
structure Records (index : MethodIndex) (filings : Filings) : Prop where
  /-- Under each name stands the set filed there last. -/
  latest : ∀ archive, index.declaredIn archive = filings.last? archive
  /-- Each name counts once. -/
  count : index.archiveCount = (filings.map Prod.fst).toFinset.card
  /-- The union has what one of the names still declares, and nothing of what was replaced. -/
  union : ∀ signature, signature ∈ index.all ↔
    ∃ archive ∈ filings.map Prod.fst, ∃ methods,
      index.declaredIn archive = some methods ∧ signature ∈ methods

theorem archiveCount_eq_card {index : MethodIndex} {names : List String}
    (filed : ∀ archive, (index.declaredIn archive).isSome ↔ archive ∈ names) :
    index.archiveCount = names.toFinset.card := by
  have same : names.toFinset = index.byArchive.keys.toFinset := by
    ext archive
    rw [List.mem_toFinset, List.mem_toFinset, ← filed, Std.ExtTreeMap.mem_keys, declaredIn,
      Std.ExtTreeMap.isSome_getElem?_iff_mem]
  rw [same, List.toFinset_card_of_nodup Std.ExtTreeMap.nodup_keys, Std.ExtTreeMap.length_keys]
  rfl

/-- An index has nothing to it but the set under each name. -/
theorem Consistent.eq_of_declaredIn {index other : MethodIndex} (consistent : index.Consistent)
    (consistent' : other.Consistent)
    (same : ∀ archive, index.declaredIn archive = other.declaredIn archive) : index = other := by
  have byArchive : index.byArchive = other.byArchive := Std.ExtTreeMap.ext_getElem? same
  have all : index.all = other.all := by
    apply Std.ExtTreeSet.ext_mem
    intro signature
    rw [consistent signature, consistent' signature]
    simp only [same]
  cases index
  cases other
  simp_all

theorem records_fileAll_empty (filings : Filings) : (empty.fileAll filings).Records filings := by
  have latest := declaredIn_fileAll_empty filings
  have filed (archive : String) :
      ((empty.fileAll filings).declaredIn archive).isSome ↔ archive ∈ filings.map Prod.fst := by
    rw [latest, filings.isSome_last?_iff]
  refine ⟨latest, archiveCount_eq_card filed, ?_⟩
  intro signature
  rw [consistent_empty.fileAll filings signature]
  constructor
  · intro ⟨archive, methods, there, member⟩
    have named : archive ∈ filings.map Prod.fst := (filed archive).mp (by simp [there])
    exact ⟨archive, named, methods, there, member⟩
  · intro ⟨archive, _, methods, there, member⟩
    exact ⟨archive, methods, there, member⟩

/-- After every step an index records the filings so far, in whatever order names come and however
often they come again. Histories that leave the same last set under each name lead to one index. -/
theorem fileAll_records_every_step (filings : Filings) :
    (∀ steps, (empty.fileAll (filings.take steps)).Records (filings.take steps)) ∧
    ∀ other : Filings, (∀ archive, other.last? archive = filings.last? archive) →
      empty.fileAll other = empty.fileAll filings := by
  refine ⟨fun steps => records_fileAll_empty (filings.take steps), ?_⟩
  intro other same
  apply (consistent_empty.fileAll other).eq_of_declaredIn (consistent_empty.fileAll filings)
  intro archive
  rw [declaredIn_fileAll_empty, declaredIn_fileAll_empty, same]

/-- An archive filed twice, its methods gone the second time; and its second filing alone. -/
def refiled : Filings := [("a.jar", {"A#f()"}), ("b.jar", {"B#g()"}), ("a.jar", {"B#g()"})]

def filedOnce : Filings := [("b.jar", {"B#g()"}), ("a.jar", {"B#g()"})]

/-- What the first filing alone declared is gone, what another archive declares as well is not. -/
theorem fileAll_forgets_replaced :
    (∀ archive, filedOnce.last? archive = refiled.last? archive) ∧
    empty.fileAll filedOnce = empty.fileAll refiled ∧
    (empty.fileAll refiled).archiveCount = 2 ∧
    "A#f()" ∉ (empty.fileAll refiled).all ∧ "B#g()" ∈ (empty.fileAll refiled).all := by
  have same (archive : String) : filedOnce.last? archive = refiled.last? archive := by
    simp only [Filings.last?, filedOnce, refiled, List.reverse_cons, List.reverse_nil,
      List.nil_append, List.cons_append, List.lookup_cons]
    by_cases named : archive == "a.jar" <;> simp [named]
  obtain ⟨records, unique⟩ := fileAll_records_every_step refiled
  have complete := records 3
  exact ⟨same, unique filedOnce same, complete.count.trans (by decide), by decide, by decide⟩

end MethodIndex

end JarCensus
