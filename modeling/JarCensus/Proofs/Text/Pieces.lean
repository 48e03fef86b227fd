import JarCensus.Proofs.Text.Search

/-! Texts in pieces. Cut at every separator, a text is known from its pieces, and so is its last cut;
cut at every occurrence of a pattern that cannot overlap itself, it has its pieces in one way only,
and replacing the pattern puts something else between them. -/
namespace JarCensus.Text

variable {α β : Type}

theorem piecesFrom_eq [BEq α] (isSeparator : α → Bool) (piece : List α)
    (done : List (List α)) (text : List α) :
    piecesFrom isSeparator piece done text =
      done.reverse ++ (text.splitOnP isSeparator).modifyHead (piece.reverse ++ ·) := by
  induction text generalizing piece done with
  | nil => simp [piecesFrom]
  | cons c text ih =>
    obtain ⟨first, others, cut⟩ := List.exists_cons_of_ne_nil (List.splitOnP_ne_nil isSeparator text)
    rw [piecesFrom, List.splitOnP_cons_eq_if_modifyHead]
    split
    · rw [ih, cut]
      simp
    · rw [ih, cut]
      simp

theorem splitOnP_map (f : α → β) (isSeparator : β → Bool) (text : List α) :
    (text.map f).splitOnP isSeparator =
      (text.splitOnP (isSeparator ∘ f)).map (List.map f) := by
  induction text with
  | nil => simp
  | cons c text ih =>
    simp only [List.map_cons, List.splitOnP_cons_eq_if_modifyHead, Function.comp_apply, ih]
    split
    · simp
    · cases text.splitOnP (isSeparator ∘ f) <;> simp

theorem not_isSeparator_of_mem {isSeparator : α → Bool} {text piece : List α}
    (member : piece ∈ text.splitOnP isSeparator) : ∀ c ∈ piece, isSeparator c = false := by
  induction text generalizing piece with
  | nil =>
    simp only [List.splitOnP_nil, List.mem_singleton] at member
    simp [member]
  | cons c text ih =>
    rw [List.splitOnP_cons_eq_if_modifyHead] at member
    split at member
    next =>
      rcases List.mem_cons.mp member with first | later
      · simp [first]
      · exact ih later
    next kept =>
      obtain ⟨next, pieces, cut⟩ := List.exists_cons_of_ne_nil
        (List.splitOnP_ne_nil isSeparator text)
      rw [cut, List.modifyHead_cons] at member
      rcases List.mem_cons.mp member with first | later
      · subst first
        have inNext := ih (cut ▸ List.mem_cons_self)
        exact List.forall_mem_cons.mpr ⟨by simpa using kept, inNext⟩
      · exact ih (cut ▸ List.mem_cons_of_mem _ later)

theorem intercalate_append (separator : List α) {parts parts' : List (List α)} (some : parts ≠ [])
    (some' : parts' ≠ []) :
    separator.intercalate (parts ++ parts') =
      separator.intercalate parts ++ separator ++ separator.intercalate parts' := by
  induction parts with
  | nil => exact absurd rfl some
  | cons part parts ih =>
    cases parts with
    | nil => simp [List.intercalate_cons_of_ne_nil some']
    | cons next parts =>
      have rest := ih (by simp)
      simp only [List.cons_append] at rest ⊢
      simp [List.intercalate_cons_cons, rest]

theorem suffix_of_suffix_append {first : α} {others before after : List α} (clean : first ∉ before)
    (ends : first :: others <:+ before ++ after) : first :: others <:+ after := by
  rcases List.suffix_or_suffix_of_suffix ends (List.suffix_append before after) with inside | across
  · exact inside
  · obtain ⟨excess, shape⟩ := across
    cases excess with
    | nil => simp [← shape]
    | cons c excess =>
      obtain ⟨rfl, rfl⟩ := List.cons.inj shape
      obtain ⟨start, joined⟩ := ends
      have reached : (start ++ c :: excess) ++ after = before ++ after := by simpa using joined
      simp [← List.append_cancel_right reached] at clean

/-- A character of two texts one after the other is in the second or in the first. -/
theorem append_eq_append_cons {c : α} {first second before after : List α}
    (same : first ++ second = before ++ c :: after) :
    (∃ more, before = first ++ more ∧ second = more ++ c :: after) ∨
      ∃ excess, first = before ++ c :: excess ∧ after = excess ++ second := by
  rcases List.append_eq_append_iff.mp same with later | ⟨excess, shape, rest⟩
  · exact .inl later
  · cases excess with
    | nil => exact .inl ⟨[], by simp [shape], by simp [rest]⟩
    | cons d excess =>
      obtain ⟨rfl, rfl⟩ := List.cons.inj rest
      exact .inr ⟨excess, shape, rfl⟩

/-- Two endings that agree but for their first character and some closing marks of which neither
first character is one. -/
theorem eq_of_cons_append [DecidableEq α] {a b : α} {start start' middle marks marks' : List α}
    (fresh : a ∉ marks') (fresh' : b ∉ marks)
    (same : start ++ a :: (middle ++ marks) = start' ++ b :: (middle ++ marks')) : a = b := by
  -- of two endings of one text the longer one would have to repeat its first character
  have longer {a b : α} {marks marks' : List α} (fresh : a ∉ marks')
      (ends : a :: (middle ++ marks) <:+ b :: (middle ++ marks')) : a = b := by
    rcases List.suffix_cons_iff.mp ends with whole | inside
    · exact (List.cons.inj whole).1
    · have counts := inside.sublist.count_le a
      rw [List.count_cons_self, List.count_append, List.count_append,
        List.count_eq_zero_of_not_mem fresh] at counts
      omega
  have ends : a :: (middle ++ marks) <:+ start ++ a :: (middle ++ marks) := List.suffix_append _ _
  have ends' : b :: (middle ++ marks') <:+ start ++ a :: (middle ++ marks) :=
    same ▸ List.suffix_append _ _
  rcases List.suffix_or_suffix_of_suffix ends ends' with first | second
  · exact longer fresh first
  · exact (longer fresh' second).symm

/-- `result` is `text` with `new` in the place of each `pattern`: what stands between these places is
kept, and has no `pattern` in it. -/
def Replaced (pattern new text result : List α) : Prop :=
  ∃ parts, (∀ part ∈ parts, ¬pattern <:+: part) ∧ text = pattern.intercalate parts ∧
    result = new.intercalate parts

theorem exists_first_occurrence {pattern text : List α} (some : pattern ≠ [])
    (occurs : pattern <:+: text) :
    ∃ before after, text = before ++ pattern ++ after ∧ ¬pattern <:+: before := by
  induction text with
  | nil => exact absurd (List.infix_nil.mp occurs) some
  | cons c text ih =>
    by_cases here : pattern <+: c :: text
    · obtain ⟨after, shape⟩ := here
      exact ⟨[], after, by simp [shape], by simpa using some⟩
    · have later := (List.infix_cons_iff.mp occurs).resolve_left here
      obtain ⟨before, after, rfl, free⟩ := ih later
      refine ⟨c :: before, after, by simp, ?_⟩
      intro within
      rcases List.infix_cons_iff.mp within with start | inside
      · apply here
        exact start.trans ⟨pattern ++ after, by simp⟩
      · exact free inside

theorem exists_parts {pattern : List α} (some : pattern ≠ []) (text : List α) :
    ∃ parts, (∀ part ∈ parts, ¬pattern <:+: part) ∧ parts ≠ [] ∧
      text = pattern.intercalate parts := by
  by_cases occurs : pattern <:+: text
  · obtain ⟨before, after, shape, free⟩ := exists_first_occurrence some occurs
    have shorter : after.length < text.length := by
      have positive := List.length_pos_iff.mpr some
      simp only [shape, List.length_append]
      omega
    obtain ⟨parts, frees, filled, rfl⟩ := exists_parts some after
    obtain ⟨next, parts, rfl⟩ := List.exists_cons_of_ne_nil filled
    refine ⟨before :: next :: parts, List.forall_mem_cons.mpr ⟨free, frees⟩, by simp, ?_⟩
    rw [shape, List.intercalate_cons_cons]
  · exact ⟨[text], by simpa using occurs, by simp, by simp⟩
termination_by text.length

/-- A pattern whose first character does not come again begins in a part only if it ends there. -/
theorem prefix_of_prefix_append {first : α} {others part rest : List α} (once : first ∉ others)
    (some : part ≠ []) (starts : first :: others <+: part ++ first :: rest) :
    first :: others <+: part := by
  rcases List.prefix_or_prefix_of_prefix starts (List.prefix_append part _) with inside | across
  · exact inside
  · obtain ⟨excess, shape⟩ := across
    rw [← shape, List.prefix_append_right_inj] at starts
    obtain ⟨c, part, rfl⟩ := List.exists_cons_of_ne_nil some
    cases excess with
    | nil => simp [← shape]
    | cons d excess =>
      obtain ⟨rfl, -⟩ := List.cons_prefix_cons.mp starts
      obtain ⟨-, rfl⟩ := List.cons.inj shape
      simp at once

section Replacing

variable [BEq α]

theorem replaceFrom_length_append (pattern new done skipped rest : List α) :
    replaceFrom pattern new done skipped.length (skipped ++ rest) =
      replaceFrom pattern new done 0 rest := by
  induction skipped with
  | nil => rfl
  | cons c skipped ih => rw [List.length_cons, List.cons_append, replaceFrom, ih]

theorem mem_of_mem_replaceFrom {pattern new done text : List α} {skip : Nat} {c : α}
    (member : c ∈ replaceFrom pattern new done skip text) : c ∈ done ∨ c ∈ new ∨ c ∈ text := by
  fun_induction replaceFrom pattern new done skip text with
  | case1 => exact .inl (List.mem_reverse.mp member)
  | case2 done skip d rest ih =>
    have found := ih member
    simp only [List.mem_cons] at found ⊢
    grind
  | case3 done d rest _ ih =>
    have found := ih member
    simp only [List.mem_append, List.mem_reverse, List.mem_cons] at found ⊢
    grind
  | case4 done d rest _ ih =>
    have found := ih member
    simp only [List.mem_cons] at found ⊢
    grind

variable [LawfulBEq α] {first : α} {others : List α}

theorem replaceFrom_part (once : first ∉ others) (new done : List α) {part : List α}
    (free : ¬first :: others <:+: part) (rest : List α) :
    replaceFrom (first :: others) new done 0 (part ++ (first :: others) ++ rest) =
      replaceFrom (first :: others) new (new.reverse ++ (part.reverse ++ done)) 0 rest := by
  induction part generalizing done with
  | nil =>
    have here : (first :: others).isPrefixOf (first :: (others ++ rest)) = true :=
      List.isPrefixOf_iff_prefix.mpr (List.prefix_append (first :: others) rest)
    simp only [List.nil_append, List.cons_append, replaceFrom, here, if_true, List.length_cons,
      Nat.add_sub_cancel, replaceFrom_length_append, List.reverse_nil]
  | cons c part ih =>
    rw [List.infix_cons_iff, not_or] at free
    have elsewhere : (first :: others).isPrefixOf (c :: (part ++ (first :: others) ++ rest)) =
        false := by
      rw [← Bool.not_eq_true, List.isPrefixOf_iff_prefix]
      intro starts
      apply free.1
      apply prefix_of_prefix_append once (by simp)
      simpa using starts
    rw [List.cons_append, List.cons_append, replaceFrom, elsewhere, if_neg Bool.false_ne_true,
      ih _ free.2]
    simp

theorem replaceFrom_intercalate (once : first ∉ others) (new done : List α)
    {parts : List (List α)} (free : ∀ part ∈ parts, ¬first :: others <:+: part) :
    replaceFrom (first :: others) new done 0 ((first :: others).intercalate parts) =
      done.reverse ++ new.intercalate parts := by
  induction parts generalizing done with
  | nil => simp [replaceFrom]
  | cons part parts ih =>
    obtain ⟨head, tail⟩ := List.forall_mem_cons.mp free
    cases parts with
    | nil => simpa using replaceFrom_of_absent new done head
    | cons next parts =>
      rw [List.intercalate_cons_cons, replaceFrom_part once new done head, ih _ tail]
      simp [List.intercalate_cons_cons]

/-- Replacing every occurrence is the one way to put something else between the parts. -/
theorem replaced_iff (once : first ∉ others) (new text result : List α) :
    Replaced (first :: others) new text result ↔
      result = replaceAll (first :: others) new text := by
  constructor
  · intro replaced
    obtain ⟨parts, free, joined, shown⟩ := replaced
    rw [joined, shown, replaceAll, replaceFrom_intercalate once new [] free]
    simp
  · intro shown
    obtain ⟨parts, free, -, joined⟩ := exists_parts (List.cons_ne_nil first others) text
    refine ⟨parts, free, joined, ?_⟩
    rw [shown, joined, replaceAll, replaceFrom_intercalate once new [] free]
    simp

theorem afterLast_append {separator : α} (before : List α) {after : List α}
    (clean : separator ∉ after) : afterLast separator (before ++ separator :: after) = after := by
  have cut := takeWhile_bne_append before.reverse (mt List.mem_reverse.mp clean)
  simp [afterLast, cut]

theorem afterLast_of_not_mem {separator : α} {text : List α} (clean : separator ∉ text) :
    afterLast separator text = text := by
  have passes : ∀ c ∈ text.reverse, (c != separator) = true := by
    intro c member
    exact bne_iff_ne.mpr (ne_of_mem_of_not_mem (List.mem_reverse.mp member) clean)
  rw [afterLast, List.takeWhile_eq_self_iff.mpr passes, List.reverse_reverse]

theorem eq_append_of_splitLast? {separator : α} {text before after : List α}
    (split : splitLast? separator text = some (before, after)) :
    text = before ++ separator :: after := by
  have member : separator ∈ text := by
    by_contra absent
    rw [(splitLast?_eq_none_iff separator text).mpr absent] at split
    cases split
  obtain ⟨last, front, shape, clean⟩ := List.eq_append_cons_of_mem (List.mem_reverse.mpr member)
  have turned : text = front.reverse ++ separator :: last.reverse := by
    simpa using congrArg List.reverse shape
  rw [turned, splitLast?_append _ (mt List.mem_reverse.mp clean)] at split
  cases split
  exact turned

/-- The last of several parts, and what the parts before it make up. -/
theorem splitLast?_intercalate {separator : α} {parts : List (List α)} (some : parts ≠ [])
    {last : List α} (clean : separator ∉ last) :
    splitLast? separator ([separator].intercalate (parts ++ [last])) =
      Option.some ([separator].intercalate parts, last) := by
  rw [intercalate_append _ some (by simp), List.intercalate_singleton, List.append_assoc,
    List.singleton_append]
  exact splitLast?_append _ clean

theorem afterLast_intercalate {separator : α} (parts : List (List α)) {last : List α}
    (clean : separator ∉ last) :
    afterLast separator ([separator].intercalate (parts ++ [last])) = last := by
  by_cases none : parts = []
  · simpa [none] using afterLast_of_not_mem clean
  · rw [intercalate_append _ none (by simp), List.intercalate_singleton, List.append_assoc,
      List.singleton_append]
    exact afterLast_append _ clean

end Replacing

end JarCensus.Text
