import JarCensus.Text.Search
import Mathlib.Data.List.Infix
import Mathlib.Data.List.TakeDrop
import Mathlib.Data.List.TakeWhile

/-! Texts that are cut again where they were joined. A separator that the parts do not have gives
them back, be it one between two parts or one between all parts of a list. A word is found where it
stands first. -/
namespace JarCensus.Text

variable {α : Type}

/-- Texts are cut in one way only at their first separator. -/
theorem append_cons_inj {separator : α} {before before' after after' : List α}
    (clean : separator ∉ before) (clean' : separator ∉ before') :
    before ++ separator :: after = before' ++ separator :: after' ↔
      before = before' ∧ after = after' := by
  constructor
  · intro same
    induction before generalizing before' with
    | nil =>
      cases before' with
      | nil => simpa using same
      | cons c before' =>
        obtain ⟨rfl, -⟩ := List.cons.inj same
        exact absurd List.mem_cons_self clean'
    | cons c before ih =>
      cases before' with
      | nil =>
        obtain ⟨rfl, -⟩ := List.cons.inj same
        exact absurd List.mem_cons_self clean
      | cons c' before' =>
        obtain ⟨rfl, rest⟩ := List.cons.inj same
        have shorter := ih (List.not_mem_of_not_mem_cons clean)
          (List.not_mem_of_not_mem_cons clean') rest
        exact ⟨congrArg (c :: ·) shorter.1, shorter.2⟩
  · rintro ⟨rfl, rfl⟩
    rfl

theorem intercalate_append_self (separator : List α) {parts : List (List α)} (some : parts ≠ []) :
    separator.intercalate parts ++ separator = parts.flatMap (· ++ separator) := by
  induction parts with
  | nil => exact absurd rfl some
  | cons part parts ih =>
    cases parts with
    | nil => simp
    | cons next parts =>
      rw [List.intercalate_cons_cons, List.flatMap_cons, List.append_assoc, ih (by simp)]

/-- Parts that each end in a separator they do not have before are read off what they make up. -/
theorem flatMap_append_inj {separator : α} {more : List α} {parts parts' : List (List α)}
    (clean : ∀ part ∈ parts, separator ∉ part) (clean' : ∀ part ∈ parts', separator ∉ part)
    (same : parts.flatMap (· ++ separator :: more) = parts'.flatMap (· ++ separator :: more)) :
    parts = parts' := by
  induction parts generalizing parts' with
  | nil =>
    cases parts' with
    | nil => rfl
    | cons part' parts' => simp at same
  | cons part parts ih =>
    cases parts' with
    | nil => simp at same
    | cons part' parts' =>
      rw [List.forall_mem_cons] at clean clean'
      simp only [List.flatMap_cons, List.append_assoc, List.cons_append] at same
      obtain ⟨rfl, rest⟩ := (append_cons_inj clean.1 clean'.1).mp same
      rw [ih clean.2 clean'.2 (List.append_cancel_left rest)]

/-- A list of parts that are not empty is read off the parts joined, if none has the first character
of what stands between them. -/
theorem intercalate_inj {separator : α} {more : List α} {parts parts' : List (List α)}
    (clean : ∀ part ∈ parts, part ≠ [] ∧ separator ∉ part)
    (clean' : ∀ part ∈ parts', part ≠ [] ∧ separator ∉ part)
    (same : (separator :: more).intercalate parts = (separator :: more).intercalate parts') :
    parts = parts' := by
  -- no parts and one empty part would be joined alike, so these are told apart first
  have vacant (parts : List (List α)) (clean : ∀ part ∈ parts, part ≠ [] ∧ separator ∉ part)
      (joined : (separator :: more).intercalate parts = []) : parts = [] := by
    cases parts with
    | nil => rfl
    | cons part parts =>
      refine absurd ?_ (clean part List.mem_cons_self).1
      cases parts <;> simp_all
  by_cases none : parts = []
  · subst none
    exact (vacant parts' clean' (by simpa using same.symm)).symm
  by_cases none' : parts' = []
  · subst none'
    exact vacant parts clean (by simpa using same)
  apply flatMap_append_inj (fun part member => (clean part member).2)
    (fun part member => (clean' part member).2)
  rw [← intercalate_append_self _ none, ← intercalate_append_self _ none', same]

section Cutting

variable [BEq α]

theorem mem_of_mem_afterLast {separator c : α} {text : List α}
    (member : c ∈ afterLast separator text) : c ∈ text := by
  rw [afterLast, List.mem_reverse] at member
  exact List.mem_reverse.mp ((List.takeWhile_sublist _).subset member)

theorem replaceFrom_length (pattern new done text : List α) :
    replaceFrom pattern new done text.length text = done.reverse := by
  induction text with
  | nil => rw [replaceFrom]
  | cons c rest ih => rw [List.length_cons, replaceFrom, ih]

variable [LawfulBEq α]

theorem takeWhile_bne_append {separator : α} {before : List α} (after : List α)
    (clean : separator ∉ before) :
    (before ++ separator :: after).takeWhile (· != separator) = before := by
  have passes : ∀ c ∈ before, (c != separator) = true := by
    intro c member
    exact bne_iff_ne.mpr (ne_of_mem_of_not_mem member clean)
  simp [List.takeWhile_append_of_pos passes]

theorem dropWhile_bne_append {separator : α} {before : List α} (after : List α)
    (clean : separator ∉ before) :
    (before ++ separator :: after).dropWhile (· != separator) = separator :: after := by
  have passes : ∀ c ∈ before, (c != separator) = true := by
    intro c member
    exact bne_iff_ne.mpr (ne_of_mem_of_not_mem member clean)
  simp [List.dropWhile_append_of_pos passes]

theorem splitLast?_append {separator : α} (before : List α) {after : List α}
    (clean : separator ∉ after) :
    splitLast? separator (before ++ separator :: after) = some (before, after) := by
  have turned : separator ∉ after.reverse := mt List.mem_reverse.mp clean
  have cut : (before ++ separator :: after).reverse.span (· != separator) =
      (after.reverse, separator :: before.reverse) := by
    rw [List.span_eq_takeWhile_dropWhile]
    simp [takeWhile_bne_append before.reverse turned, dropWhile_bne_append before.reverse turned]
  rw [splitLast?, cut]
  simp

theorem splitLast?_eq_none_iff (separator : α) (text : List α) :
    splitLast? separator text = none ↔ separator ∉ text := by
  have absent : text.reverse.dropWhile (· != separator) = [] ↔ separator ∉ text := by
    rw [List.dropWhile_eq_nil_iff]
    simp only [List.mem_reverse, bne_iff_ne]
    exact ⟨fun all member => all separator member rfl, fun none c member same => none (same ▸ member)⟩
  rw [splitLast?, List.span_eq_takeWhile_dropWhile, ← absent]
  cases text.reverse.dropWhile (· != separator) <;> simp

theorem replaceFrom_of_absent {pattern : List α} (new done : List α) {text : List α}
    (absent : ¬pattern <:+: text) : replaceFrom pattern new done 0 text = done.reverse ++ text := by
  induction text generalizing done with
  | nil => simp [replaceFrom]
  | cons c rest ih =>
    rw [List.infix_cons_iff, not_or] at absent
    have elsewhere : pattern.isPrefixOf (c :: rest) = false := by
      rw [← Bool.not_eq_true, List.isPrefixOf_iff_prefix]
      exact absent.1
    rw [replaceFrom, elsewhere, if_neg Bool.false_ne_true, ih _ absent.2]
    simp

/-- A text without occurrences is kept. -/
theorem replaceAll_of_absent {pattern : List α} (new : List α) {text : List α}
    (absent : ¬pattern <:+: text) : replaceAll pattern new text = text :=
  replaceFrom_of_absent new [] absent

/-- A text that is one occurrence is replaced as a whole. -/
theorem replaceAll_self {pattern : List α} (new : List α) (some : pattern ≠ []) :
    replaceAll pattern new pattern = new := by
  cases pattern with
  | nil => exact absurd rfl some
  | cons c rest =>
    have here : (c :: rest).isPrefixOf (c :: rest) = true :=
      List.isPrefixOf_iff_prefix.mpr List.prefix_rfl
    rw [replaceAll, replaceFrom, if_pos here, List.length_cons, Nat.add_sub_cancel,
      replaceFrom_length]
    simp

end Cutting

section Finding

/-- `rest` is what `text` has from the first occurrence of `pattern` on. -/
structure FromFirst (pattern text rest : List α) : Prop where
  ends : rest <:+ text
  starts : pattern <+: rest
  earliest : ∀ other, other <:+ text → pattern <+: other → other <:+ rest

theorem FromFirst.unique {pattern text rest rest' : List α} (first : FromFirst pattern text rest)
    (first' : FromFirst pattern text rest') : rest = rest' :=
  (first'.earliest rest first.ends first.starts).eq_of_length_le
    (first.earliest rest' first'.ends first'.starts).length_le

variable [BEq α] [LawfulBEq α] {pattern text rest : List α}

theorem fromFirst_of_findFrom? (found : findFrom? pattern text = some rest) :
    FromFirst pattern text rest := by
  induction text with
  | nil =>
    rw [findFrom?] at found
    split at found
    next vacant =>
      cases found
      exact ⟨List.suffix_rfl, by simpa using vacant, fun other ends _ => ends⟩
    next => cases found
  | cons c text ih =>
    rw [findFrom?] at found
    split at found
    next here =>
      cases found
      exact ⟨List.suffix_rfl, List.isPrefixOf_iff_prefix.mp here, fun other ends _ => ends⟩
    next elsewhere =>
      obtain ⟨ends, starts, earliest⟩ := ih found
      refine ⟨ends.trans (List.suffix_cons c text), starts, ?_⟩
      intro other ends' starts'
      rcases List.suffix_cons_iff.mp ends' with rfl | later
      · exact absurd (List.isPrefixOf_iff_prefix.mpr starts') elsewhere
      · exact earliest other later starts'

theorem findFrom?_eq_none_iff : findFrom? pattern text = none ↔ ¬pattern <:+: text := by
  induction text with
  | nil => simp [findFrom?]
  | cons c text ih =>
    rw [findFrom?, List.infix_cons_iff, not_or, ← ih, ← List.isPrefixOf_iff_prefix]
    split <;> simp_all

theorem findFrom?_eq_some_iff :
    findFrom? pattern text = some rest ↔ FromFirst pattern text rest := by
  refine ⟨fromFirst_of_findFrom?, fun first => ?_⟩
  cases found : findFrom? pattern text with
  | none =>
    have present : pattern <:+: text := first.starts.isInfix.trans first.ends.isInfix
    exact absurd present (findFrom?_eq_none_iff.mp found)
  | some rest' => rw [(fromFirst_of_findFrom? found).unique first]

end Finding

end JarCensus.Text
