import JarCensus.Descriptor
import JarCensus.Proofs.Text.Search

/-! What the types of a descriptor say about its text. Types that are read spell what was read, so
the argument text is known from the types; and types whose class names do not look like something
else are known from the way signatures show them. -/
namespace JarCensus

/-- No descriptor spells a class without a name, or with a semicolon in it. -/
def ElementType.WellFormed : ElementType → Prop
  | .primitive _ => True
  | .reference name => name ≠ [] ∧ ';' ∉ name

/-- A class name that signatures show like no other type. -/
structure ElementType.PlainName (name : List Char) : Prop where
  comma : ',' ∉ name
  bracket : '[' ∉ name
  dot : '.' ∉ name
  keyword : ∀ primitive : Primitive, name ≠ primitive.keyword.toList

/-- Every class name among `types` is plain. -/
def PlainNames (types : List ArgumentType) : Prop :=
  ∀ type ∈ types, ∀ name, type.element = .reference name → ElementType.PlainName name

theorem Primitive.code_of_ofCode? {c : Char} {type : Primitive} (found : ofCode? c = some type) :
    type.code = c := by
  simpa using List.find?_some found

namespace Descriptor

/-- What has been read of a type that is not complete. -/
def Position.spelled : Position → List Char
  | .element dimensions => List.replicate dimensions '['
  | .within dimensions name => List.replicate dimensions '[' ++ 'L' :: name.reverse

/-- Semicolons end names, so none is within one. -/
def Position.WellFormed : Position → Prop
  | .element _ => True
  | .within _ name => ';' ∉ name

/-- `types` are those done and, after them, the well-formed types that `text` spells. -/
def Completes (done : List ArgumentType) (text : List Char) (types : List ArgumentType) : Prop :=
  ∃ later, types = done.reverse ++ later ∧ text = later.flatMap ArgumentType.spell ∧
    ∀ type ∈ later, type.element.WellFormed

theorem Completes.cons {done types : List ArgumentType} {type : ArgumentType} {text : List Char}
    (completes : Completes (type :: done) text types) (sound : type.element.WellFormed) :
    Completes done (type.spell ++ text) types := by
  obtain ⟨later, rfl, rfl, sounds⟩ := completes
  refine ⟨type :: later, by simp, by simp, ?_⟩
  exact List.forall_mem_cons.mpr ⟨sound, sounds⟩

/-- What a scan has read of a type and what it reads from there on spell the types that it adds to
those done. -/
theorem completes_of_typesFrom {done types : List ArgumentType} {position : Position}
    {text : List Char} (read : typesFrom done position text = some types)
    (sound : position.WellFormed) : Completes done (position.spelled ++ text) types := by
  fun_induction typesFrom done position text with
  | case1 done =>
    obtain rfl := Option.some.inj read
    exact ⟨[], by simp, rfl, by simp⟩
  | case2 | case3 | case7 | case8 => simp at read
  | case4 done dimensions rest ih =>
    have completes := ih read trivial
    rwa [Position.spelled, List.replicate_succ', List.append_assoc] at completes
  | case5 done dimensions rest _ ih =>
    have completes := ih read (by simp [Position.WellFormed])
    rwa [Position.spelled, List.append_assoc] at completes
  | case6 done dimensions c rest _ _ type found ih =>
    have completes := (ih read trivial).cons trivial
    obtain rfl := Primitive.code_of_ofCode? found
    rwa [ArgumentType.spell, List.append_assoc] at completes
  | case9 done dimensions name rest named ih =>
    have nonempty : name.reverse ≠ [] := by simpa using named
    have inside : ';' ∉ name.reverse := mt List.mem_reverse.mp sound
    have completes := (ih read trivial).cons ⟨nonempty, inside⟩
    simpa [ArgumentType.spell, Position.spelled] using completes
  | case10 done dimensions name c rest other ih =>
    have completes := ih read (List.not_mem_cons_of_ne_of_not_mem (Ne.symm other) sound)
    simpa [Position.spelled] using completes

/-- Types that are read spell what was read. -/
theorem spell_of_types? {text : List Char} {types : List ArgumentType}
    (read : types? text = some types) :
    text = types.flatMap ArgumentType.spell ∧ ∀ type ∈ types, type.element.WellFormed := by
  obtain ⟨later, rfl, spelled, sound⟩ := completes_of_typesFrom read trivial
  exact ⟨spelled, sound⟩

/-- The text between `(` and the first `)`. -/
def argumentText (descriptor : String) : List Char :=
  (descriptor.toList.drop 1).takeWhile (· != ')')

theorem exists_cons_of_arguments? {text : List Char} {types : List ArgumentType}
    (read : arguments? text = some types) : ∃ rest, text = '(' :: rest := by
  unfold arguments? at read
  split at read
  next rest => exact ⟨rest, rfl⟩
  next => cases read

theorem types?_of_arguments? {descriptor : String} {types : List ArgumentType}
    (read : arguments? descriptor.toList = some types) :
    types? (argumentText descriptor) = some types := by
  rw [argumentText]
  unfold arguments? at read
  split at read
  next rest shape =>
    rw [shape, List.drop_one, List.tail_cons]
    split at read
    · cases read
    · exact read
  next => cases read

end Descriptor

namespace ArgumentType

/-- Slashes put back where signatures show dots. -/
def undotted (name : List Char) : List Char := name.map fun c => if c = '.' then '/' else c

theorem undotted_elementName_reference {name : List Char} (plain : '.' ∉ name) :
    undotted (elementName (.reference name)) = name := by
  rw [undotted, elementName, List.map_map]
  refine (List.map_congr_left ?_).trans (List.map_id name)
  intro c member
  have other : c ≠ '.' := by
    rintro rfl
    exact plain member
  by_cases slash : c = '/' <;> simp [slash, other]

theorem undotted_elementName_primitive (type : Primitive) :
    undotted (elementName (.primitive type)) = type.keyword.toList := by
  cases type <;> decide

theorem keyword_injective {type type' : Primitive}
    (same : type.keyword.toList = type'.keyword.toList) : type = type' := by
  revert same
  cases type <;> cases type' <;> decide

section Plain

variable {element element' : ElementType} {type type' : ArgumentType}

theorem elementName_inj (plain : ∀ name, element = .reference name → ElementType.PlainName name)
    (plain' : ∀ name, element' = .reference name → ElementType.PlainName name)
    (same : elementName element = elementName element') : element = element' := by
  have undone := congrArg undotted same
  cases element with
  | primitive type =>
    cases element' with
    | primitive type' =>
      simp only [undotted_elementName_primitive] at undone
      rw [keyword_injective undone]
    | reference name' =>
      have named := plain' name' rfl
      rw [undotted_elementName_primitive, undotted_elementName_reference named.dot] at undone
      exact absurd undone.symm (named.keyword type)
  | reference name =>
    have named := plain name rfl
    cases element' with
    | primitive type' =>
      rw [undotted_elementName_primitive, undotted_elementName_reference named.dot] at undone
      exact absurd undone (named.keyword type')
    | reference name' =>
      rw [undotted_elementName_reference named.dot,
        undotted_elementName_reference (plain' name' rfl).dot] at undone
      rw [undone]

/-- Keywords have letters only, and a plain class name is shown without commas and brackets. -/
theorem not_mem_elementName {c : Char} (special : c = ',' ∨ c = '[')
    (plain : ∀ name, element = .reference name → ElementType.PlainName name) :
    c ∉ elementName element := by
  cases element with
  | primitive type => rcases special with rfl | rfl <;> cases type <;> decide
  | reference name =>
    have named := plain name rfl
    simp only [elementName, List.mem_map, not_exists, not_and]
    intro other member shown
    split at shown
    · subst shown
      simp at special
    · subst shown
      rcases special with rfl | rfl
      · exact named.comma member
      · exact named.bracket member

theorem elementName_ne_nil (sound : element.WellFormed) : elementName element ≠ [] := by
  cases element with
  | primitive type => cases type <;> decide
  | reference name => simpa [elementName] using sound.1

/-- Brackets shifted by one, so that they begin where the element's name ends, with or without
dimensions. -/
theorem brackets_append (dimensions : Nat) :
    (List.replicate dimensions ['[', ']']).flatten ++ ['['] =
      '[' :: (List.replicate dimensions [']', '[']).flatten := by
  induction dimensions with
  | zero => rfl
  | succ dimensions ih => simp [List.replicate_succ, ih]

/-- Types with plain class names are shown apart. -/
theorem render_inj (plain : ∀ name, type.element = .reference name → ElementType.PlainName name)
    (plain' : ∀ name, type'.element = .reference name → ElementType.PlainName name)
    (same : type.render = type'.render) : type = type' := by
  obtain ⟨dimensions, element⟩ := type
  obtain ⟨dimensions', element'⟩ := type'
  have shown := congrArg (· ++ ['[']) (String.ofList_inj.mp same)
  simp only [List.append_assoc, brackets_append] at shown
  obtain ⟨named, brackets⟩ := (Text.append_cons_inj (not_mem_elementName (.inr rfl) plain)
    (not_mem_elementName (.inr rfl) plain')).mp shown
  obtain rfl : element = element' := elementName_inj plain plain' named
  have lengths : dimensions * 2 = dimensions' * 2 := by
    simpa using congrArg List.length brackets
  obtain rfl : dimensions = dimensions' := by omega
  rfl

theorem map_render_inj {types types' : List ArgumentType} (plain : PlainNames types)
    (plain' : PlainNames types') (same : types.map render = types'.map render) :
    types = types' := by
  induction types generalizing types' with
  | nil => exact (List.map_eq_nil_iff.mp same.symm).symm
  | cons type types ih =>
    cases types' with
    | nil => simp at same
    | cons type' types' =>
      obtain ⟨plainHead, plainTail⟩ := List.forall_mem_cons.mp plain
      obtain ⟨plainHead', plainTail'⟩ := List.forall_mem_cons.mp plain'
      obtain ⟨first, others⟩ := List.cons.inj same
      rw [render_inj plainHead plainHead' first, ih plainTail plainTail' others]

/-- What signatures show between commas is not empty and has no comma. -/
theorem render_clean {types : List ArgumentType} (plain : PlainNames types)
    (sound : ∀ type ∈ types, type.element.WellFormed) :
    ∀ part ∈ (types.map render).map String.toList, part ≠ [] ∧ ',' ∉ part := by
  intro part member
  simp only [List.map_map, List.mem_map, Function.comp_apply] at member
  obtain ⟨type, member, rfl⟩ := member
  have named := elementName_ne_nil (sound type member)
  have clean := not_mem_elementName (.inl rfl) (plain type member)
  simp only [render, String.toList_ofList]
  constructor
  · simp [named]
  · simp [clean]

end Plain

end ArgumentType

end JarCensus
