import JarCensus.Proofs.Descriptor

/-! The descriptors that are read. A descriptor with arguments is `(`, the spellings of some types one
after the other, `)` and anything; it can be cut into these in one way only, and every other text is
refused. -/
namespace JarCensus.Descriptor

/-- `descriptor` puts `types` between its parentheses and `tail` after them. Class names are neither
empty nor do they hold what ends a name or the arguments. -/
structure Spells (descriptor : String) (types : List ArgumentType) (tail : List Char) : Prop where
  text : descriptor.toList = '(' :: types.flatMap ArgumentType.spell ++ ')' :: tail
  names : ∀ type ∈ types, ∀ name, type.element = .reference name →
    name ≠ [] ∧ ';' ∉ name ∧ ')' ∉ name

section Scan

variable (done : List ArgumentType) (dimensions : Nat) (rest : List Char)

theorem typesFrom_replicate (more : Nat) :
    typesFrom done (.element dimensions) (List.replicate more '[' ++ rest) =
      typesFrom done (.element (dimensions + more)) rest := by
  induction more generalizing dimensions with
  | zero => simp
  | succ more ih =>
    simp only [List.replicate_succ, List.cons_append, typesFrom, if_true, ih]
    congr 2
    omega

theorem typesFrom_code (type : Primitive) :
    typesFrom done (.element dimensions) (type.code :: rest) =
      typesFrom (⟨dimensions, .primitive type⟩ :: done) (.element 0) rest := by
  cases type <;> simp [typesFrom, Primitive.code, Primitive.ofCode?, Primitive.all]

/-- A name goes on up to the first semicolon; what was read of it before comes first. -/
theorem typesFrom_within (seen : List Char) {name : List Char} (some : seen.reverse ++ name ≠ [])
    (inside : ';' ∉ name) :
    typesFrom done (.within dimensions seen) (name ++ ';' :: rest) =
      typesFrom (⟨dimensions, .reference (seen.reverse ++ name)⟩ :: done) (.element 0) rest := by
  induction name generalizing seen with
  | nil =>
    have named : seen ≠ [] := by simpa using some
    simp [typesFrom, named]
  | cons c name ih =>
    rw [List.mem_cons, not_or] at inside
    simp only [List.cons_append, typesFrom, if_neg (Ne.symm inside.1)]
    rw [ih (c :: seen) (by simp) inside.2]
    simp

theorem typesFrom_spell {type : ArgumentType} (sound : type.element.WellFormed) :
    typesFrom done (.element 0) (type.spell ++ rest) =
      typesFrom (type :: done) (.element 0) rest := by
  obtain ⟨dimensions, element⟩ := type
  rw [ArgumentType.spell, List.append_assoc, typesFrom_replicate, Nat.zero_add]
  cases element with
  | primitive type => exact typesFrom_code done dimensions rest type
  | reference name =>
    have within : typesFrom done (.within dimensions []) (name ++ ';' :: rest) = _ :=
      typesFrom_within done dimensions rest [] sound.1 sound.2
    simpa [typesFrom] using within

end Scan

theorem typesFrom_flatMap_spell (done : List ArgumentType) {types : List ArgumentType}
    (sound : ∀ type ∈ types, type.element.WellFormed) :
    typesFrom done (.element 0) (types.flatMap ArgumentType.spell) =
      some (done.reverse ++ types) := by
  induction types generalizing done with
  | nil => simp [typesFrom]
  | cons type types ih =>
    obtain ⟨first, others⟩ := List.forall_mem_cons.mp sound
    rw [List.flatMap_cons, typesFrom_spell done _ first, ih _ others]
    simp

theorem types?_eq_some_iff (text : List Char) (types : List ArgumentType) :
    types? text = some types ↔
      text = types.flatMap ArgumentType.spell ∧ ∀ type ∈ types, type.element.WellFormed := by
  constructor
  · exact spell_of_types?
  · intro spelled
    rw [types?, spelled.1, typesFrom_flatMap_spell [] spelled.2]
    simp

theorem arguments?_of_open {rest : List Char} (unclosed : ')' ∉ rest) :
    arguments? ('(' :: rest) = none := by
  have nothing : rest.dropWhile (· != ')') = [] := by
    apply List.dropWhile_eq_nil_iff.mpr
    intro c member
    exact bne_iff_ne.mpr (ne_of_mem_of_not_mem member unclosed)
  simp [arguments?, nothing]

/-- Only what stands before the first `)` is read. -/
theorem arguments?_of_closed {inside : List Char} (tail : List Char) (closed : ')' ∉ inside) :
    arguments? ('(' :: (inside ++ ')' :: tail)) = types? inside := by
  simp only [arguments?, Text.takeWhile_bne_append tail closed,
    Text.dropWhile_bne_append tail closed]

theorem close_mem_flatMap_spell_iff (types : List ArgumentType) :
    ')' ∈ types.flatMap ArgumentType.spell ↔
      ∃ type ∈ types, ∃ name, type.element = .reference name ∧ ')' ∈ name := by
  simp only [List.mem_flatMap]
  apply exists_congr
  rintro ⟨dimensions, element⟩
  apply and_congr_right
  intro _
  cases element with
  | primitive type => cases type <;> simp [ArgumentType.spell, Primitive.code]
  | reference name => simp [ArgumentType.spell]

theorem Spells.close_not_mem {descriptor : String} {types : List ArgumentType} {tail : List Char}
    (spelled : Spells descriptor types tail) : ')' ∉ types.flatMap ArgumentType.spell := by
  rw [close_mem_flatMap_spell_iff]
  intro inside
  obtain ⟨type, member, name, named, inName⟩ := inside
  exact (spelled.names type member name named).2.2 inName

theorem exists_spells_iff (descriptor : String) (types : List ArgumentType) :
    arguments? descriptor.toList = some types ↔ ∃ tail, Spells descriptor types tail := by
  constructor
  · intro read
    obtain ⟨rest, shape⟩ := exists_cons_of_arguments? read
    rw [shape] at read
    by_cases closed : ')' ∈ rest
    · obtain ⟨inside, tail, rfl, clean⟩ := List.eq_append_cons_of_mem closed
      rw [arguments?_of_closed tail clean, types?_eq_some_iff] at read
      obtain ⟨rfl, sound⟩ := read
      refine ⟨tail, shape, ?_⟩
      intro type member name named
      have wellFormed := sound type member
      rw [named] at wellFormed
      refine ⟨wellFormed.1, wellFormed.2, ?_⟩
      intro inName
      exact clean ((close_mem_flatMap_spell_iff types).mpr ⟨type, member, name, named, inName⟩)
    · rw [arguments?_of_open closed] at read
      cases read
  · intro given
    obtain ⟨tail, spelled⟩ := given
    rw [spelled.text, List.cons_append, arguments?_of_closed tail spelled.close_not_mem,
      types?_eq_some_iff]
    refine ⟨rfl, ?_⟩
    intro type member
    cases named : type.element with
    | primitive => trivial
    | reference name =>
      obtain ⟨some, inside, _⟩ := spelled.names type member name named
      exact ⟨some, inside⟩

theorem Spells.unique {descriptor : String} {types types' : List ArgumentType}
    {tail tail' : List Char} (spelled : Spells descriptor types tail)
    (spelled' : Spells descriptor types' tail') : types = types' ∧ tail = tail' := by
  have read := (exists_spells_iff descriptor types).mpr ⟨tail, spelled⟩
  have read' := (exists_spells_iff descriptor types').mpr ⟨tail', spelled'⟩
  obtain rfl := Option.some.inj (read.symm.trans read')
  have texts := spelled.text.symm.trans spelled'.text
  simpa using texts

theorem argumentTypes_eq_ok_iff (descriptor : String) (names : List String) :
    argumentTypes descriptor = .ok names ↔
      ∃ types, arguments? descriptor.toList = some types ∧ names = types.map ArgumentType.render := by
  rw [argumentTypes]
  cases arguments? descriptor.toList <;> simp [eq_comm]

/-- A text is read as a descriptor exactly if it is one, then with the types that it spells, and
refused as it stands otherwise. No descriptor spells two lists of types. -/
theorem argumentTypes_reads_exactly_descriptors (descriptor : String) :
    (∀ names, argumentTypes descriptor = .ok names ↔
      ∃ types tail, Spells descriptor types tail ∧ names = types.map ArgumentType.render) ∧
    (∀ error, argumentTypes descriptor = .error error ↔
      (¬∃ types tail, Spells descriptor types tail) ∧ error = .badDescriptor descriptor) ∧
    ∀ types types' tail tail', Spells descriptor types tail → Spells descriptor types' tail' →
      types = types' ∧ tail = tail' := by
  refine ⟨?_, ?_, fun _ _ _ _ => Spells.unique⟩
  · intro names
    simp only [argumentTypes_eq_ok_iff, exists_and_right, ← exists_spells_iff]
  · intro error
    simp only [← exists_spells_iff, argumentTypes]
    cases arguments? descriptor.toList <;> simp [eq_comm]

end JarCensus.Descriptor
