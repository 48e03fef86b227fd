import JarCensus.Proofs.Descriptor
import JarCensus.Signature

/-! Which methods share a signature. A signature puts owner, name and argument types one after the
other with `#`, `(` and commas between them, so it can be taken apart again as long as these
characters stand for nothing else. -/
namespace JarCensus.Signature

/-- A method whose signature can be taken apart: its parts have none of the characters that
signatures put between them or read as something else. -/
structure Legible (owner name descriptor : String) : Prop where
  owner : '$' ∉ owner.toList ∧ '(' ∉ owner.toList ∧ '#' ∉ owner.toList
  name : '.' ∉ name.toList ∧ '/' ∉ name.toList ∧ '$' ∉ name.toList ∧ '(' ∉ name.toList ∧
    '#' ∉ name.toList
  accepted : ∃ arguments, Descriptor.argumentTypes descriptor = .ok arguments
  classNames : ∀ types, Descriptor.arguments? descriptor.toList = some types → PlainNames types

/-- Both names are that of constructors, or neither has it in it. -/
def SameSort (name name' : String) : Prop :=
  (name.toList = constructorName ∧ name'.toList = constructorName) ∨
    (¬constructorName <:+: name.toList ∧ ¬constructorName <:+: name'.toList)

theorem exists_arguments?_of_accepted {descriptor : String}
    (accepted : ∃ arguments, Descriptor.argumentTypes descriptor = .ok arguments) :
    ∃ types, Descriptor.arguments? descriptor.toList = some types := by
  obtain ⟨arguments, read⟩ := accepted
  rw [Descriptor.argumentTypes] at read
  split at read
  next types found => exact ⟨types, found⟩
  next => cases read

theorem flatten_eq_self {head : List Char} (dollar : '$' ∉ head) (slash : '/' ∉ head) :
    flatten head = head := by
  refine (List.map_congr_left ?_).trans (List.map_id head)
  intro c member
  have noDollar : c ≠ '$' := by
    rintro rfl
    exact dollar member
  have noSlash : c ≠ '/' := by
    rintro rfl
    exact slash member
  simp [noDollar, noSlash]

theorem not_mem_dotted {c : Char} {owner : String} (dot : c ≠ '.')
    (absent : c = '/' ∨ c ∉ owner.toList) : c ∉ (dotted owner).toList := by
  rw [dotted, String.toList_ofList, List.mem_map]
  rintro ⟨other, member, shown⟩
  split at shown
  next => exact dot shown.symm
  next noSlash =>
    subst shown
    rcases absent with slash | absent
    · exact noSlash slash
    · exact absent member

/-- The text of a signature, by its parts. -/
def assemble (owner method : List Char) (types : List ArgumentType) : Signature :=
  String.ofList owner ++ "#" ++ String.ofList method ++ "(" ++
    String.intercalate ", " (types.map ArgumentType.render) ++ ")"

/-- With nothing that opens arguments before it, the descriptor alone decides whether there is a
signature, and the path before it how the method is called. -/
theorem ofRaw_eq_map {head rest owner method : List Char} (bare : '(' ∉ head)
    (split : Text.splitLast? '.' (flatten head) = some (owner, method)) :
    ofRaw (String.ofList (head ++ '(' :: rest)) =
      (Descriptor.argumentTypes (String.ofList ('(' :: rest))).map fun arguments =>
        String.ofList owner ++ "#" ++ String.ofList (methodName owner method) ++ "(" ++
          String.intercalate ", " arguments ++ ")" := by
  simp only [ofRaw, String.toList_ofList, Text.takeWhile_bne_append rest bare,
    Text.dropWhile_bne_append rest bare, List.isEmpty_cons, Bool.false_eq_true, if_false, split]
  cases Descriptor.argumentTypes (String.ofList ('(' :: rest)) <;> rfl

/-- What stands before the first `(` is the head, what stands from there on the descriptor. -/
theorem ofRaw_eq_ok {head rest owner method : List Char} {types : List ArgumentType}
    (bare : '(' ∉ head) (read : Descriptor.arguments? ('(' :: rest) = some types)
    (split : Text.splitLast? '.' (flatten head) = some (owner, method)) :
    ofRaw (String.ofList (head ++ '(' :: rest)) =
      .ok (assemble owner (methodName owner method) types) := by
  rw [ofRaw_eq_map bare split, Descriptor.argumentTypes, String.toList_ofList, read]
  rfl

/-- With a dot before its first `(`, an identifier has a signature exactly if what stands from there
on is a descriptor. -/
theorem exists_ofRaw_iff {head rest : List Char} (bare : '(' ∉ head) (dot : '.' ∈ head) :
    (∃ signature, ofRaw (String.ofList (head ++ rest)) = .ok signature) ↔
      ∃ types, Descriptor.arguments? (rest.dropWhile (· != '(')) = some types := by
  have passes : ∀ c ∈ head, (c != '(') = true := by
    intro c member
    rw [bne_iff_ne]
    rintro rfl
    exact bare member
  have cut : Text.splitLast? '.' (flatten (head ++ rest.takeWhile (· != '('))) ≠ none := by
    rw [Ne, Text.splitLast?_eq_none_iff, not_not, flatten, List.mem_map]
    exact ⟨'.', List.mem_append_left _ dot, rfl⟩
  obtain ⟨⟨owner, method⟩, split⟩ := Option.ne_none_iff_exists'.mp cut
  simp only [ofRaw, String.toList_ofList, List.takeWhile_append_of_pos passes,
    List.dropWhile_append_of_pos passes, Descriptor.argumentTypes, split]
  cases rest.dropWhile (· != '(') with
  | nil => simp [Descriptor.arguments?, bind, Except.bind, throw, throwThe, MonadExceptOf.throw]
  | cons c tail =>
    cases Descriptor.arguments? (c :: tail) <;> simp [bind, Except.bind, pure, Except.pure]

theorem exists_canonical_iff {owner : String} (name descriptor : String)
    (bare : '(' ∉ owner.toList) :
    (∃ signature, canonical owner name descriptor = .ok signature) ↔
      ∃ types, Descriptor.arguments?
        ((name.toList ++ descriptor.toList).dropWhile (· != '(')) = some types := by
  have raw : dotted owner ++ "." ++ name ++ descriptor =
      String.ofList ((dotted owner).toList ++ ['.'] ++ (name.toList ++ descriptor.toList)) := by
    rw [← String.toList_inj]
    simp
  have bareHead : '(' ∉ (dotted owner).toList ++ ['.'] := by
    simpa using not_mem_dotted (by decide) (.inr bare)
  rw [canonical, raw, exists_ofRaw_iff bareHead (by simp)]

theorem not_mem_head {owner name : String} {c : Char} (dot : c ≠ '.')
    (inOwner : c ∉ (dotted owner).toList) (inName : c ∉ name.toList) :
    c ∉ (dotted owner).toList ++ '.' :: name.toList := by
  simp [inOwner, inName, dot]

theorem canonical_eq_ok {owner name descriptor : String} {types : List ArgumentType}
    (legible : Legible owner name descriptor)
    (read : Descriptor.arguments? descriptor.toList = some types) :
    canonical owner name descriptor =
      .ok (assemble (dotted owner).toList (methodName (dotted owner).toList name.toList)
        types) := by
  obtain ⟨rest, shape⟩ := Descriptor.exists_cons_of_arguments? read
  have raw : dotted owner ++ "." ++ name ++ descriptor =
      String.ofList ((dotted owner).toList ++ '.' :: name.toList ++ '(' :: rest) := by
    rw [← shape, ← String.toList_inj]
    simp
  have slash : '/' ∉ (dotted owner).toList ++ '.' :: name.toList :=
    not_mem_head (by decide) (not_mem_dotted (by decide) (.inl rfl)) legible.name.2.1
  have dollar : '$' ∉ (dotted owner).toList ++ '.' :: name.toList :=
    not_mem_head (by decide) (not_mem_dotted (by decide) (.inr legible.owner.1))
      legible.name.2.2.1
  have bare : '(' ∉ (dotted owner).toList ++ '.' :: name.toList :=
    not_mem_head (by decide) (not_mem_dotted (by decide) (.inr legible.owner.2.1))
      legible.name.2.2.2.1
  have dots : Text.splitLast? '.' (flatten ((dotted owner).toList ++ '.' :: name.toList)) =
      some ((dotted owner).toList, name.toList) := by
    rw [flatten_eq_self dollar slash]
    exact Text.splitLast?_append _ legible.name.1
  rw [canonical, raw]
  exact ofRaw_eq_ok bare (shape ▸ read) dots

theorem assemble_inj {owner owner' method method' : List Char} {types types' : List ArgumentType}
    (ownerClean : '#' ∉ owner) (ownerClean' : '#' ∉ owner') (methodClean : '(' ∉ method)
    (methodClean' : '(' ∉ method') (plain : PlainNames types) (plain' : PlainNames types')
    (sound : ∀ type ∈ types, type.element.WellFormed)
    (sound' : ∀ type ∈ types', type.element.WellFormed)
    (same : assemble owner method types = assemble owner' method' types') :
    owner = owner' ∧ method = method' ∧ types = types' := by
  have listed := congrArg String.toList same
  simp only [assemble, String.toList_append, String.toList_ofList, String.toList_intercalate,
    List.append_assoc] at listed
  obtain ⟨owners, listed⟩ := (Text.append_cons_inj ownerClean ownerClean').mp listed
  obtain ⟨methods, listed⟩ := (Text.append_cons_inj methodClean methodClean').mp listed
  have joined : [',', ' '].intercalate ((types.map ArgumentType.render).map String.toList) =
      [',', ' '].intercalate ((types'.map ArgumentType.render).map String.toList) :=
    List.append_cancel_right listed
  have shown := Text.intercalate_inj (ArgumentType.render_clean plain sound)
    (ArgumentType.render_clean plain' sound') joined
  have rendered := (List.map_inj_right fun _ _ => String.toList_inj.mp).mp shown
  exact ⟨owners, methods, ArgumentType.map_render_inj plain plain' rendered⟩

section Names

variable {owner name : List Char}

theorem methodName_constructor (owner : List Char) :
    methodName owner constructorName = Text.afterLast '.' owner :=
  Text.replaceAll_self _ (by decide)

theorem methodName_of_absent (owner : List Char) (other : ¬constructorName <:+: name) :
    methodName owner name = name :=
  Text.replaceAll_of_absent _ other

/-- A method is shown under its name, a constructor under a part of its owner's. -/
theorem not_mem_methodName {c : Char} (sort : name = constructorName ∨ ¬constructorName <:+: name)
    (inOwner : c ∉ owner) (inName : c ∉ name) : c ∉ methodName owner name := by
  rcases sort with rfl | other
  · rw [methodName_constructor]
    exact fun member => inOwner (Text.mem_of_mem_afterLast member)
  · rwa [methodName_of_absent owner other]

end Names

theorem SameSort.symm {name name' : String} (sort : SameSort name name') : SameSort name' name :=
  sort.imp And.symm And.symm

theorem SameSort.name_eq {name name' : String} (sort : SameSort name name') {owner : List Char}
    (shown : methodName owner name.toList = methodName owner name'.toList) : name = name' := by
  rcases sort with ⟨constructor, constructor'⟩ | ⟨other, other'⟩
  · exact String.toList_inj.mp (constructor.trans constructor'.symm)
  · rw [methodName_of_absent _ other, methodName_of_absent _ other'] at shown
    exact String.toList_inj.mp shown

theorem Legible.paren_not_mem_methodName {owner name descriptor name' : String}
    (legible : Legible owner name descriptor) (sort : SameSort name name') :
    '(' ∉ methodName (dotted owner).toList name.toList :=
  not_mem_methodName (sort.imp And.left And.left)
    (not_mem_dotted (by decide) (.inr legible.owner.2.1)) legible.name.2.2.2.1

/-- Two methods that can be taken apart have signatures, and these are the same exactly if owner,
name and argument text are. What stands after the arguments has no part in it. -/
theorem canonical_identifies_method {owner owner' name name' descriptor descriptor' : String}
    (legible : Legible owner name descriptor) (legible' : Legible owner' name' descriptor')
    (sort : SameSort name name') :
    ∃ signature signature', canonical owner name descriptor = .ok signature ∧
      canonical owner' name' descriptor' = .ok signature' ∧
      (signature = signature' ↔ dotted owner = dotted owner' ∧ name = name' ∧
        Descriptor.argumentText descriptor = Descriptor.argumentText descriptor') := by
  obtain ⟨types, read⟩ := exists_arguments?_of_accepted legible.accepted
  obtain ⟨types', read'⟩ := exists_arguments?_of_accepted legible'.accepted
  refine ⟨_, _, canonical_eq_ok legible read, canonical_eq_ok legible' read', ?_⟩
  have typesRead := Descriptor.types?_of_arguments? read
  have typesRead' := Descriptor.types?_of_arguments? read'
  constructor
  · intro same
    obtain ⟨spelled, sound⟩ := Descriptor.spell_of_types? typesRead
    obtain ⟨spelled', sound'⟩ := Descriptor.spell_of_types? typesRead'
    have clean := not_mem_dotted (by decide) (.inr legible.owner.2.2)
    have clean' := not_mem_dotted (by decide) (.inr legible'.owner.2.2)
    obtain ⟨owners, methods, rfl⟩ := assemble_inj clean clean'
      (legible.paren_not_mem_methodName sort) (legible'.paren_not_mem_methodName sort.symm)
      (legible.classNames types read) (legible'.classNames types' read') sound sound' same
    rw [owners] at methods
    exact ⟨String.toList_inj.mp owners, sort.name_eq methods, spelled.trans spelled'.symm⟩
  · rintro ⟨owners, rfl, texts⟩
    rw [texts, typesRead'] at typesRead
    obtain rfl := Option.some.inj typesRead
    rw [owners]

theorem plainName_string : ElementType.PlainName "java/lang/String".toList where
  comma := by decide
  bracket := by decide
  dot := by decide
  keyword type := by cases type <;> decide

theorem legible_of_strings {owner descriptor : String} {dimensions : Nat}
    (inOwner : '$' ∉ owner.toList ∧ '(' ∉ owner.toList ∧ '#' ∉ owner.toList)
    (read : Descriptor.arguments? descriptor.toList =
      some [⟨dimensions, .reference "java/lang/String".toList⟩, ⟨0, .primitive .int⟩]) :
    Legible owner "<init>" descriptor where
  owner := inOwner
  name := by decide
  accepted := ⟨_, by rw [Descriptor.argumentTypes, read]⟩
  classNames types other := by
    obtain rfl := Option.some.inj (read.symm.trans other)
    intro type member name element
    simp only [List.mem_cons, List.not_mem_nil, or_false] at member
    rcases member with rfl | rfl
    · cases element
      exact plainName_string
    · cases element

/-- Two constructors that differ in one dimension of one argument, the owner spelled in two ways. -/
theorem canonical_tells_overloads_apart :
    Legible "lib/Util" "<init>" "([Ljava/lang/String;I)V" ∧
    Legible "lib.Util" "<init>" "([[Ljava/lang/String;I)V" ∧ SameSort "<init>" "<init>" ∧
    ∃ signature signature',
      canonical "lib/Util" "<init>" "([Ljava/lang/String;I)V" = .ok signature ∧
      canonical "lib.Util" "<init>" "([[Ljava/lang/String;I)V" = .ok signature' ∧
      signature ≠ signature' := by
  have one : Legible "lib/Util" "<init>" "([Ljava/lang/String;I)V" :=
    legible_of_strings (by decide) rfl
  have two : Legible "lib.Util" "<init>" "([[Ljava/lang/String;I)V" :=
    legible_of_strings (by decide) rfl
  have sort : SameSort "<init>" "<init>" := .inl ⟨rfl, rfl⟩
  obtain ⟨signature, signature', shown, shown', same⟩ := canonical_identifies_method one two sort
  refine ⟨one, two, sort, signature, signature', shown, shown', ?_⟩
  rw [ne_eq, same]
  decide

end JarCensus.Signature
