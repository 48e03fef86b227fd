import JarCensus.ClassFile.Decode
import JarCensus.MethodIndex.Basic
import JarCensus.Proofs.DescriptorGrammar
import JarCensus.Proofs.Results
import JarCensus.Proofs.SignatureParts

/-! Whose arguments a signature shows. They are those of the method's descriptor unless its owner or
name has a `(`: what opens there is read first, and the descriptor is never reached or swallowed by a
class name. A `(` that is not closed before the descriptor begins never gives the right arguments. -/
namespace JarCensus

namespace Descriptor

open ArgumentType (spell)

section Spelling

variable {types types' : List ArgumentType} {before after : List Char}

theorem flatMap_spell_inj (sound : ∀ type ∈ types, type.element.WellFormed)
    (sound' : ∀ type ∈ types', type.element.WellFormed)
    (same : types.flatMap spell = types'.flatMap spell) : types = types' := by
  have read := (types?_eq_some_iff (types.flatMap spell) types).mpr ⟨rfl, sound⟩
  have read' := (types?_eq_some_iff (types.flatMap spell) types').mpr ⟨same, sound'⟩
  exact Option.some.inj (read.symm.trans read')

/-- The first semicolon ends the first class name. -/
theorem exists_of_semicolon (clean : ';' ∉ before)
    (sound : ∀ type ∈ types, type.element.WellFormed)
    (spelled : types.flatMap spell = before ++ ';' :: after) :
    ∃ front dimensions name back, types = front ++ ⟨dimensions, .reference name⟩ :: back ∧
      'L' :: name <:+ before ∧ after = back.flatMap spell := by
  induction types generalizing before with
  | nil => simp at spelled
  | cons type types ih =>
    obtain ⟨first, others⟩ := List.forall_mem_cons.mp sound
    obtain ⟨dimensions, element⟩ := type
    cases element with
    | primitive type =>
      have absent : ';' ∉ spell ⟨dimensions, .primitive type⟩ := by
        cases type <;> simp [spell, Primitive.code]
      rw [List.flatMap_cons] at spelled
      rcases Text.append_eq_append_cons spelled with ⟨more, rfl, rest⟩ | ⟨excess, shape, -⟩
      · have inMore : ';' ∉ more := fun member => clean (List.mem_append_right _ member)
        obtain ⟨front, dims, name, back, rfl, ends, shown⟩ := ih inMore others rest
        exact ⟨_ :: front, dims, name, back, rfl, ends.trans (List.suffix_append _ _), shown⟩
      · simp [shape] at absent
    | reference name =>
      have start : ';' ∉ List.replicate dimensions '[' ++ 'L' :: name := by
        simpa [List.mem_replicate] using first.2
      have cut : (List.replicate dimensions '[' ++ 'L' :: name) ++ ';' :: types.flatMap spell =
          before ++ ';' :: after := by
        simpa [spell] using spelled
      obtain ⟨rfl, rfl⟩ := (Text.append_cons_inj start clean).mp cut
      exact ⟨[], dimensions, name, types, rfl, List.suffix_append _ _, rfl⟩

/-- Only class names have parentheses in them, and they end in a semicolon. -/
theorem exists_of_paren_mem_spell {type : ArgumentType}
    (spelled : type.spell = before ++ '(' :: after) :
    ∃ name rest, type.element = .reference name ∧ '(' :: rest <:+ name ∧ after = rest ++ [';'] := by
  obtain ⟨dimensions, element⟩ := type
  cases element with
  | primitive type =>
    have absent : '(' ∉ spell ⟨dimensions, .primitive type⟩ := by
      cases type <;> simp [spell, Primitive.code]
    simp [spelled] at absent
  | reference name =>
    have ends : '(' :: after <:+ (List.replicate dimensions '[' ++ ['L']) ++ (name ++ [';']) :=
      ⟨before, by simpa [spell] using spelled.symm⟩
    obtain ⟨start, shape⟩ := Text.suffix_of_suffix_append (by simp [List.mem_replicate]) ends
    rcases List.eq_nil_or_concat after with none | ⟨rest, last, some⟩
    · rw [none] at shape
      have ended := (List.append_inj' shape rfl).2
      simp at ended
    · rw [some, List.concat_eq_append, ← List.cons_append, ← List.append_assoc] at shape
      obtain ⟨named, ended⟩ := List.append_inj' shape rfl
      refine ⟨name, rest, rfl, ⟨start, named⟩, ?_⟩
      rw [some, List.concat_eq_append, ended]

theorem exists_of_paren (spelled : types.flatMap spell = before ++ '(' :: after) :
    ∃ front dimensions name rest back, types = front ++ ⟨dimensions, .reference name⟩ :: back ∧
      '(' :: rest <:+ name ∧ after = rest ++ ';' :: back.flatMap spell := by
  induction types generalizing before with
  | nil => simp at spelled
  | cons type types ih =>
    rw [List.flatMap_cons] at spelled
    rcases Text.append_eq_append_cons spelled with ⟨more, -, rest⟩ | ⟨excess, shape, rfl⟩
    · obtain ⟨front, dimensions, name, inner, back, rfl, ends, shown⟩ := ih rest
      exact ⟨type :: front, dimensions, name, inner, back, rfl, ends, shown⟩
    · obtain ⟨name, inner, named, ends, rfl⟩ := exists_of_paren_mem_spell shape
      refine ⟨[], type.dimensions, name, inner, types, ?_, ends, by simp⟩
      rw [← named, List.nil_append]

end Spelling

end Descriptor

namespace Signature

open ArgumentType (spell render elementName)

/-- The arguments as signatures end in them. -/
def argumentList (arguments : List String) : List Char :=
  ("(" ++ String.intercalate ", " arguments ++ ")").toList

/-- What each argument and the comma after it make up, the parenthesis before them included. -/
def opened (types : List ArgumentType) : List Char :=
  '(' :: types.flatMap fun type => type.render.toList ++ [',', ' ']

theorem opened_append (front : List ArgumentType) (type : ArgumentType)
    (back : List ArgumentType) :
    opened (front ++ type :: back) = opened front ++ type.render.toList ++
      ([',', ' '] ++ back.flatMap fun type => type.render.toList ++ [',', ' ']) := by
  simp [opened]

theorem exists_opened_eq (types : List ArgumentType) :
    ∃ start last, opened types = start ++ [last] ∧ (last = '(' ∨ last = ' ') := by
  rcases List.eq_nil_or_concat types with none | ⟨front, type, some⟩
  · exact ⟨[], '(', by simp [opened, none], .inl rfl⟩
  · refine ⟨opened front ++ type.render.toList ++ [','], ' ', ?_, .inr rfl⟩
    rw [some, List.concat_eq_append, opened_append]
    simp

theorem exists_argumentList_eq {types : List ArgumentType} (some : types ≠ []) :
    ∃ inner, argumentList (types.map render) = inner ++ [')'] ∧
      inner ++ [',', ' '] = opened types := by
  have shown : (types.map fun type => type.render.toList) ≠ [] := by simpa using some
  refine ⟨'(' :: [',', ' '].intercalate (types.map fun type => type.render.toList), ?_, ?_⟩
  · simp [argumentList, Function.comp_def]
  · rw [List.cons_append, Text.intercalate_append_self _ shown, opened, List.flatMap_map]

theorem opened_suffix_opened {types types' : List ArgumentType} (some : types ≠ [])
    (some' : types' ≠ [])
    (ends : argumentList (types.map render) <:+ argumentList (types'.map render)) :
    opened types <:+ opened types' := by
  obtain ⟨inner, shown, joined⟩ := exists_argumentList_eq some
  obtain ⟨inner', shown', joined'⟩ := exists_argumentList_eq some'
  obtain ⟨start, reached⟩ := ends
  rw [shown, shown', ← List.append_assoc] at reached
  refine ⟨start, ?_⟩
  rw [← joined, ← joined', ← List.append_assoc, List.append_cancel_right reached]

/-- A class name that goes on over an opening parenthesis and the first arguments up to a class among
them is not shown as these arguments are: before that class they have a parenthesis or a blank, and
the name has the letter that marks a class. -/
theorem not_opened_suffix_opened {front front' back : List ArgumentType}
    {dimensions dimensions' : Nat} {name name' : List Char} (inside : 'L' :: name <:+ name') :
    ¬opened (front ++ ⟨dimensions, .reference name⟩ :: back) <:+
      opened (front' ++ ⟨dimensions', .reference name'⟩ :: back) := by
  intro ends
  obtain ⟨start, reached⟩ := ends
  obtain ⟨early, last, opening, sort⟩ := exists_opened_eq front
  obtain ⟨outside, rfl⟩ := inside
  rw [opened_append, opened_append, opening, ← List.append_assoc] at reached
  have named : (start ++ early) ++ last :: (elementName (.reference name) ++
        (List.replicate dimensions ['[', ']']).flatten) =
      (opened front' ++ elementName (.reference outside)) ++ 'L' :: (elementName (.reference name) ++
        (List.replicate dimensions' ['[', ']']).flatten) := by
    simpa [render, elementName] using List.append_cancel_right reached
  have fresh : last ∉ (List.replicate dimensions' ['[', ']']).flatten := by
    rcases sort with rfl | rfl <;> simp
  have marked := Text.eq_of_cons_append fresh (by simp) named
  rcases sort with rfl | rfl <;> simp at marked

/-- Arguments that were opened in a name and go on in the descriptor do not end in those of the
descriptor. -/
theorem not_ends_of_unclosed {types types' : List ArgumentType} {before : List Char}
    (sound : ∀ type ∈ types, type.element.WellFormed)
    (sound' : ∀ type ∈ types', type.element.WellFormed)
    (spelled : types'.flatMap spell = before ++ '(' :: types.flatMap spell) :
    ¬argumentList (types.map render) <:+ argumentList (types'.map render) := by
  intro ends
  obtain ⟨front', dimensions', name', rest, back', rfl, inName', shown⟩ :=
    Descriptor.exists_of_paren spelled
  obtain ⟨start, rfl⟩ := inName'
  have wellFormed : (ElementType.reference (start ++ '(' :: rest)).WellFormed :=
    sound' ⟨dimensions', _⟩ (by simp)
  have clean : ';' ∉ rest := by
    intro member
    apply wellFormed.2
    simp [member]
  obtain ⟨front, dimensions, name, back, rfl, inName, same⟩ :=
    Descriptor.exists_of_semicolon clean sound shown
  have agree : back' = back :=
    Descriptor.flatMap_spell_inj (fun type member => sound' type (by simp [member]))
      (fun type member => sound type (by simp [member])) same
  subst agree
  have inside : 'L' :: name <:+ start ++ '(' :: rest :=
    inName.trans ((List.suffix_cons '(' rest).trans (List.suffix_append start _))
  exact not_opened_suffix_opened inside (opened_suffix_opened (by simp) (by simp) ends)

/-- What follows an opened argument list is only read up to where it closes; if it never does, the
descriptor's own arguments are lost. -/
theorem exists_reading_iff {descriptor : String} {arguments : List String}
    (read : Descriptor.argumentTypes descriptor = .ok arguments) (tail : List Char) :
    (∃ other, Descriptor.argumentTypes (String.ofList ('(' :: (tail ++ descriptor.toList))) =
        .ok other ∧ argumentList arguments <:+ argumentList other) ↔
      ∃ other, Descriptor.argumentTypes (String.ofList ('(' :: tail)) = .ok other ∧
        argumentList arguments <:+ argumentList other := by
  simp only [Descriptor.argumentTypes_eq_ok_iff, String.toList_ofList] at read ⊢
  obtain ⟨types, found, rfl⟩ := read
  by_cases closed : ')' ∈ tail
  · obtain ⟨inside, more, rfl, clean⟩ := List.eq_append_cons_of_mem closed
    rw [List.append_assoc, List.cons_append, Descriptor.arguments?_of_closed _ clean,
      Descriptor.arguments?_of_closed _ clean]
  · rw [Descriptor.arguments?_of_open closed]
    obtain ⟨rest, spelled⟩ := (Descriptor.exists_spells_iff descriptor types).mp found
    obtain ⟨shape, sound⟩ := (Descriptor.types?_eq_some_iff _ types).mp
      (Descriptor.types?_of_arguments? found)
    have clean : ')' ∉ tail ++ '(' :: types.flatMap spell := by
      simp [closed, spelled.close_not_mem]
    have raw : tail ++ descriptor.toList =
        (tail ++ '(' :: types.flatMap spell) ++ ')' :: rest := by
      simp [spelled.text]
    rw [raw, Descriptor.arguments?_of_closed rest clean]
    refine iff_of_false ?_ (by simp)
    rintro ⟨other, ⟨types', found', rfl⟩, ends⟩
    obtain ⟨spelled', sound'⟩ := (Descriptor.types?_eq_some_iff _ types').mp found'
    exact not_ends_of_unclosed sound sound' spelled'.symm ends

theorem dot_mem_flatten_iff (head : List Char) :
    '.' ∈ flatten head ↔ ∃ c ∈ head, isSeparator c = true := by
  have same : ∀ c, (if c = '$' || c = '/' then '.' else c) = '.' ↔ isSeparator c = true := by
    intro c
    by_cases dollar : c = '$' <;> by_cases slash : c = '/' <;> simp [isSeparator, dollar, slash]
  simp only [flatten, List.mem_map, same]

section Head

variable {head owner method : List Char}

theorem paren_not_mem_of_splitLast? (bare : '(' ∉ head)
    (split : Text.splitLast? '.' (flatten head) = some (owner, method)) :
    '(' ∉ owner ++ '#' :: methodName owner method := by
  rw [← paren_mem_flatten_iff, Text.eq_append_of_splitLast? split] at bare
  simp only [List.mem_append, List.mem_cons, not_or] at bare ⊢
  refine ⟨bare.1, by decide, ?_⟩
  intro shown
  rcases Text.mem_of_mem_replaceFrom shown with nothing | inOwner | inMethod
  · simp at nothing
  · exact bare.1 (Text.mem_of_mem_afterLast inOwner)
  · exact bare.2.2 inMethod

theorem ofRaw_ne_ok {rest : List Char} (bare : '(' ∉ head)
    (split : Text.splitLast? '.' (flatten head) = none) (signature : Signature) :
    ofRaw (String.ofList (head ++ '(' :: rest)) ≠ .ok signature := by
  intro given
  simp only [ofRaw, String.toList_ofList, Text.takeWhile_bne_append rest bare,
    Text.dropWhile_bne_append rest bare, List.isEmpty_cons, Bool.false_eq_true, if_false,
    split] at given
  cases read : Descriptor.argumentTypes (String.ofList ('(' :: rest)) with
  | error e =>
    rw [read] at given
    cases given
  | ok other =>
    rw [read] at given
    cases given

/-- An identifier has no parenthesis before the first, so that its signature ends in given arguments
exactly if those that it opens there do. -/
theorem exists_ofRaw_ending_iff {rest : List Char} (bare : '(' ∉ head) (arguments : List String) :
    (∃ signature, ofRaw (String.ofList (head ++ '(' :: rest)) = .ok signature ∧
        argumentList arguments <:+ signature.toList) ↔
      (∃ c ∈ head, isSeparator c = true) ∧
        ∃ other, Descriptor.argumentTypes (String.ofList ('(' :: rest)) = .ok other ∧
          argumentList arguments <:+ argumentList other := by
  rw [← dot_mem_flatten_iff]
  cases split : Text.splitLast? '.' (flatten head) with
  | none =>
    have absent := (Text.splitLast?_eq_none_iff '.' (flatten head)).mp split
    refine iff_of_false ?_ fun held => absent held.1
    intro found
    obtain ⟨signature, given, -⟩ := found
    exact ofRaw_ne_ok bare split signature given
  | some parts =>
    obtain ⟨owner, method⟩ := parts
    have dot : '.' ∈ flatten head := by simp [Text.eq_append_of_splitLast? split]
    have clean := paren_not_mem_of_splitLast? bare split
    have ends_iff (other : List String) : argumentList arguments <:+
        (owner ++ '#' :: methodName owner method) ++ argumentList other ↔
          argumentList arguments <:+ argumentList other := by
      constructor
      · intro ends
        rw [argumentList, String.append_assoc, String.toList_append] at ends ⊢
        exact Text.suffix_of_suffix_append clean ends
      · intro ends
        exact ends.trans (List.suffix_append _ _)
    rw [ofRaw_eq_map bare split]
    cases Descriptor.argumentTypes (String.ofList ('(' :: rest)) with
    | error e => simp [Except.map]
    | ok other =>
      have shown := ends_iff other
      simp only [argumentList] at shown ⊢
      simpa [Except.map, dot] using shown

end Head

theorem paren_mem_head_iff (owner name : String) :
    '(' ∈ (dotted owner).toList ++ '.' :: name.toList ↔ '(' ∈ owner.toList ∨ '(' ∈ name.toList := by
  rw [← paren_mem_flatten_iff owner.toList, ← flatten_dotted, paren_mem_flatten_iff]
  simp

/-- The path of owner and name opens arguments of its own after some part of it, and they are
`other`. -/
def HoldsArguments (owner name : String) (other : List String) : Prop :=
  ∃ head tail, (dotted owner).toList ++ '.' :: name.toList = head ++ '(' :: tail ∧ '(' ∉ head ∧
    (∃ c ∈ head, isSeparator c = true) ∧
    Descriptor.argumentTypes (String.ofList ('(' :: tail)) = .ok other

/-- A method with a descriptor has a signature that ends in the descriptor's arguments exactly if
neither owner nor name has a parenthesis, or if these hold arguments themselves and end in the same. -/
theorem canonical_ends_in_own_arguments_iff {descriptor : String} {arguments : List String}
    (read : Descriptor.argumentTypes descriptor = .ok arguments) (owner name : String) :
    (∃ signature, canonical owner name descriptor = .ok signature ∧
        argumentList arguments <:+ signature.toList) ↔
      ('(' ∉ owner.toList ∧ '(' ∉ name.toList) ∨
        ∃ other, HoldsArguments owner name other ∧
          argumentList arguments <:+ argumentList other := by
  rw [← not_or, ← paren_mem_head_iff, canonical, raw_eq]
  by_cases opens : '(' ∈ (dotted owner).toList ++ '.' :: name.toList
  · obtain ⟨head, tail, shape, bare⟩ := List.eq_append_cons_of_mem opens
    have holds_iff (other : List String) : HoldsArguments owner name other ↔
        (∃ c ∈ head, isSeparator c = true) ∧
          Descriptor.argumentTypes (String.ofList ('(' :: tail)) = .ok other := by
      constructor
      · intro holds
        obtain ⟨head', tail', shape', bare', parted, held⟩ := holds
        obtain ⟨rfl, rfl⟩ := (Text.append_cons_inj bare bare').mp (shape.symm.trans shape')
        exact ⟨parted, held⟩
      · intro opened
        obtain ⟨parted, held⟩ := opened
        exact ⟨head, tail, shape, bare, parted, held⟩
    rw [shape, List.append_assoc, List.cons_append, exists_ofRaw_ending_iff bare,
      exists_reading_iff read tail]
    simp [holds_iff, and_assoc]
  · obtain ⟨types, found, rfl⟩ := (Descriptor.argumentTypes_eq_ok_iff _ _).mp read
    obtain ⟨rest, spelled⟩ := (Descriptor.exists_spells_iff descriptor types).mp found
    refine iff_of_true ?_ (.inl opens)
    rw [spelled.text, List.cons_append, exists_ofRaw_ending_iff opens]
    refine ⟨⟨'.', by simp, rfl⟩, types.map render, ?_, List.suffix_rfl⟩
    rwa [← List.cons_append, ← spelled.text, String.ofList_toList]

/-- An abstract class with one method, `m(`. -/
def oddlyNamed : ClassFile :=
  ⟨0, 52, 0x421, "a.B", some "java.lang.Object", [], [⟨"a.B", 0x401, "m(", "()V", []⟩]⟩

def oddlyNamedData : List UInt8 :=
  [0xCA, 0xFE, 0xBA, 0xBE, 0, 0, 0, 0x34, 0, 7, 1, 0, 3, 0x61, 0x2F, 0x42, 7, 0, 1, 1, 0, 2, 0x6D,
    0x28, 1, 0, 3, 0x28, 0x29, 0x56, 1, 0, 0x10, 0x6A, 0x61, 0x76, 0x61, 0x2F, 0x6C, 0x61, 0x6E,
    0x67, 0x2F, 0x4F, 0x62, 0x6A, 0x65, 0x63, 0x74, 7, 0, 5, 4, 0x21, 0, 2, 0, 6, 0, 0, 0, 0, 0, 1,
    4, 1, 0, 3, 0, 4, 0, 0, 0, 0]

/-- Class data may call a method `m(`. It has no signature, so that nothing of its archive is
declared; and `f(I)` without arguments is shown with one. -/
theorem canonical_loses_own_arguments :
    ClassFile.decode oddlyNamedData = .ok oddlyNamed ∧
    Descriptor.argumentTypes "()V" = .ok [] ∧
    (¬∃ signature, canonical "a.B" "m(" "()V" = .ok signature ∧
      argumentList [] <:+ signature.toList) ∧
    canonical "a.B" "m(" "()V" = .error (.badDescriptor "(()V") ∧
    declaredMethods [oddlyNamed] =
      .error ⟨[.declaration "a.B" "m("], .format (.badDescriptor "(()V")⟩ ∧
    canonical "a.B" "f(I)" "()V" = .ok "a.B#f(int)" := by
  have decoded : ClassFile.decode oddlyNamedData = .ok oddlyNamed :=
    (toOption_eq_some_iff _ _).mp (by decide +kernel)
  have read : Descriptor.argumentTypes "()V" = .ok [] := by decide +kernel
  have failed : canonical "a.B" "m(" "()V" = .error (.badDescriptor "(()V") := by decide +kernel
  refine ⟨decoded, read, ?_, failed, ?_, by decide +kernel⟩
  · rw [canonical_ends_in_own_arguments_iff read]
    rintro (⟨-, inName⟩ | ⟨other, ⟨head, tail, shape, bare, -, held⟩, -⟩)
    · simp at inName
    · have cut : "a.B.m".toList ++ '(' :: [] = head ++ '(' :: tail := shape
      obtain ⟨rfl, rfl⟩ := (Text.append_cons_inj (by decide) bare).mp cut
      cases held
  · simp only [declaredMethods, oddlyNamed, List.flatMap_cons, List.flatMap_nil, List.append_nil,
      List.foldlM_cons, Method.signature, failed]
    rfl

end Signature

end JarCensus
