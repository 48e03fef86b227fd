import JarCensus.Proofs.Signature
import JarCensus.Proofs.Text.Pieces

/-! The signature of a method by its parts. Owner and name together are one path, cut at every dot,
slash and dollar sign; its last part is the method, the one before it the simple name of the owner.
How the owner was spelled makes no difference. -/
namespace JarCensus.Signature

/-- What stands between two parts of a path. -/
def isSeparator (c : Char) : Bool := c = '.' || c = '/' || c = '$'

/-- The parts of `owner.name`, empty ones included. -/
def segments (owner name : String) : List (List Char) :=
  (owner.toList ++ '.' :: name.toList).splitOnP isSeparator

theorem splitOn_flatten (head : List Char) :
    (flatten head).splitOn '.' = head.splitOnP isSeparator := by
  have same : ((· == '.') ∘ fun c => if c = '$' || c = '/' then '.' else c) = isSeparator := by
    funext c
    by_cases dollar : c = '$' <;> by_cases slash : c = '/' <;>
      simp [isSeparator, dollar, slash, beq_eq_decide]
  have kept : ∀ piece ∈ head.splitOnP isSeparator, flatten piece = piece := by
    intro piece member
    have clean := Text.not_isSeparator_of_mem member
    apply flatten_eq_self
    · intro dollar
      simpa [isSeparator] using clean '$' dollar
    · intro slash
      simpa [isSeparator] using clean '/' slash
  rw [List.splitOn_eq_splitOnP, flatten, Text.splitOnP_map, same]
  exact (List.map_congr_left kept).trans (List.map_id _)

theorem flatten_dotted (owner : String) :
    flatten (dotted owner).toList = flatten owner.toList := by
  simp only [flatten, dotted, String.toList_ofList, List.map_map]
  apply List.map_congr_left
  intro c _
  by_cases slash : c = '/' <;> simp [slash]

theorem flatten_append_cons (owner name : List Char) :
    flatten (owner ++ '.' :: name) = flatten owner ++ '.' :: flatten name := by
  simp [flatten]

theorem flatten_head (owner name : String) :
    flatten ((dotted owner).toList ++ '.' :: name.toList) =
      ['.'].intercalate (segments owner name) := by
  rw [segments, ← splitOn_flatten, List.intercalate_splitOn, flatten_append_cons, flatten_dotted,
    flatten_append_cons]

/-- The dot between owner and name is a separator, so that there are two parts at least. -/
theorem exists_segments (owner name : String) :
    ∃ outer simple method, segments owner name = outer ++ [simple, method] := by
  have cut : segments owner name =
      owner.toList.splitOnP isSeparator ++ name.toList.splitOnP isSeparator :=
    List.splitOnP_append_cons _ _ rfl
  obtain ⟨front, method, methods⟩ := List.eq_nil_or_concat (name.toList.splitOnP isSeparator)
    |>.resolve_left (List.splitOnP_ne_nil _ _)
  have some : owner.toList.splitOnP isSeparator ++ front ≠ [] := by
    simp [List.splitOnP_ne_nil]
  obtain ⟨outer, simple, owners⟩ := (List.eq_nil_or_concat _).resolve_left some
  rw [List.concat_eq_append] at methods owners
  refine ⟨outer, simple, method, ?_⟩
  rw [cut, methods, ← List.append_assoc, owners, List.append_assoc, List.singleton_append]

theorem dot_not_mem_of_mem_segments {owner name : String} {part : List Char}
    (member : part ∈ segments owner name) : '.' ∉ part := by
  intro dot
  simpa [isSeparator] using Text.not_isSeparator_of_mem member '.' dot

theorem raw_eq (owner name descriptor : String) :
    dotted owner ++ "." ++ name ++ descriptor =
      String.ofList ((dotted owner).toList ++ '.' :: name.toList ++ descriptor.toList) := by
  rw [← String.toList_inj]
  simp

section Bare

variable {owner name descriptor : String} {outer : List (List Char)} {simple method : List Char}

theorem canonical_eq_map (inOwner : '(' ∉ owner.toList) (inName : '(' ∉ name.toList)
    (opens : descriptor.toList.head? = some '(')
    (parts : segments owner name = outer ++ [simple, method]) :
    canonical owner name descriptor =
      (Descriptor.argumentTypes descriptor).map fun arguments =>
        String.ofList (['.'].intercalate (outer ++ [simple])) ++ "#" ++
          String.ofList (Text.replaceAll constructorName simple method) ++ "(" ++
          String.intercalate ", " arguments ++ ")" := by
  have bare : '(' ∉ (dotted owner).toList ++ '.' :: name.toList :=
    not_mem_head (by decide) (not_mem_dotted (by decide) (.inr inOwner)) inName
  obtain ⟨rest, shown⟩ := List.head?_eq_some_iff.mp opens
  have noDot : ∀ part ∈ [simple, method], '.' ∉ part := by
    intro part member
    have inPath : part ∈ segments owner name := by
      rw [parts]
      exact List.mem_append_right outer member
    exact dot_not_mem_of_mem_segments inPath
  have split : Text.splitLast? '.' (flatten ((dotted owner).toList ++ '.' :: name.toList)) =
      some (['.'].intercalate (outer ++ [simple]), method) := by
    rw [flatten_head, parts, List.append_cons]
    exact Text.splitLast?_intercalate (by simp) (noDot method (by simp))
  have named : methodName (['.'].intercalate (outer ++ [simple])) method =
      Text.replaceAll constructorName simple method := by
    rw [methodName, Text.afterLast_intercalate outer (noDot simple (by simp))]
  rw [canonical, raw_eq, shown, ofRaw_eq_map bare split, ← shown, named, String.ofList_toList]

end Bare

theorem paren_mem_flatten_iff (head : List Char) : '(' ∈ flatten head ↔ '(' ∈ head := by
  have same : ∀ c, (if c = '$' || c = '/' then '.' else c) = '(' ↔ c = '(' := by
    intro c
    by_cases dollar : c = '$' <;> by_cases slash : c = '/' <;> simp [dollar, slash]
  simp only [flatten, List.mem_map, same, exists_eq_right]

/-- Signatures depend on the owner's flat path only. -/
theorem canonical_congr {owner owner' name descriptor : String} (inOwner : '(' ∉ owner.toList)
    (inName : '(' ∉ name.toList) (opens : descriptor.toList.head? = some '(')
    (alike : flatten owner'.toList = flatten owner.toList) :
    canonical owner' name descriptor = canonical owner name descriptor := by
  have inOwner' : '(' ∉ owner'.toList := by
    rw [← paren_mem_flatten_iff] at inOwner ⊢
    rwa [alike]
  have same : segments owner' name = segments owner name := by
    simp only [segments, ← splitOn_flatten, flatten_append_cons, alike]
  obtain ⟨outer, simple, method, parts⟩ := exists_segments owner name
  rw [canonical_eq_map inOwner inName opens parts,
    canonical_eq_map inOwner' inName opens (same.trans parts)]

theorem count_dollar_render (type : ArgumentType) :
    type.render.toList.count '$' = type.spell.count '$' := by
  obtain ⟨dimensions, element⟩ := type
  have brackets : (List.replicate dimensions ['[', ']']).flatten.count '$' = 0 := by
    simp [List.count_flatten]
  have opening : (List.replicate dimensions '[').count '$' = 0 := by
    simp [List.count_replicate]
  rw [ArgumentType.render, ArgumentType.spell, String.toList_ofList, List.count_append, brackets,
    List.count_append, opening, Nat.zero_add, Nat.add_zero]
  cases element with
  | primitive type => cases type <;> rfl
  | reference name =>
    have same : ∀ c, ((if c = '/' then '.' else c) == '$') = (c == '$') := by
      intro c
      by_cases slash : c = '/' <;> simp [slash]
    simp [ArgumentType.elementName, List.count, List.countP_map, Function.comp_def, same]

/-- Dollar signs in class names of arguments are all shown. -/
theorem count_dollar_arguments {descriptor : String} {arguments : List String}
    (read : Descriptor.argumentTypes descriptor = .ok arguments) :
    (arguments.flatMap String.toList).count '$' = (Descriptor.argumentText descriptor).count '$' := by
  obtain ⟨types, found⟩ := exists_arguments?_of_accepted ⟨arguments, read⟩
  have spelled := (Descriptor.spell_of_types? (Descriptor.types?_of_arguments? found)).1
  rw [Descriptor.argumentTypes, found] at read
  cases read
  simp [spelled, List.count_flatMap, List.flatMap_map, count_dollar_render, Function.comp_def]

theorem replaced_constructorName_iff (new text result : List Char) :
    Text.Replaced constructorName new text result ↔
      result = Text.replaceAll constructorName new text := by
  have shape : constructorName = ['<', 'i', 'n', 'i', 't', '>'] := rfl
  rw [shape]
  exact Text.replaced_iff (by decide) new text result

/-- The signature of a method whose owner and name open no arguments. Without a descriptor there is
none; otherwise it is put together from the parts of the path and the arguments as they are, the name
of constructors being replaced by the part before. Spellings of the owner with one flat path agree. -/
theorem canonical_assembles_parts {owner name descriptor : String} (inOwner : '(' ∉ owner.toList)
    (inName : '(' ∉ name.toList) (opens : descriptor.toList.head? = some '(') :
    (∀ error, canonical owner name descriptor = .error error ↔
      error = .badDescriptor descriptor ∧ ∃ e, Descriptor.argumentTypes descriptor = .error e) ∧
    (∀ signature, canonical owner name descriptor = .ok signature ↔
      ∃ arguments outer simple method shown,
        Descriptor.argumentTypes descriptor = .ok arguments ∧
        segments owner name = outer ++ [simple, method] ∧
        Text.Replaced constructorName simple method shown ∧
        signature = String.ofList (['.'].intercalate (outer ++ [simple])) ++ "#" ++
          String.ofList shown ++ "(" ++ String.intercalate ", " arguments ++ ")") ∧
    (∀ arguments, Descriptor.argumentTypes descriptor = .ok arguments →
      (arguments.flatMap String.toList).count '$' =
        (Descriptor.argumentText descriptor).count '$') ∧
    ∀ owner', flatten owner'.toList = flatten owner.toList →
      canonical owner' name descriptor = canonical owner name descriptor := by
  refine ⟨?_, ?_, fun _ => count_dollar_arguments, fun _ => canonical_congr inOwner inName opens⟩
  · intro error
    obtain ⟨outer, simple, method, parts⟩ := exists_segments owner name
    rw [canonical_eq_map inOwner inName opens parts, Descriptor.argumentTypes]
    cases Descriptor.arguments? descriptor.toList <;> simp [Except.map, eq_comm]
  · intro signature
    constructor
    · intro given
      obtain ⟨outer, simple, method, parts⟩ := exists_segments owner name
      rw [canonical_eq_map inOwner inName opens parts] at given
      cases read : Descriptor.argumentTypes descriptor with
      | error e =>
        rw [read] at given
        cases given
      | ok arguments =>
        rw [read] at given
        cases given
        exact ⟨arguments, outer, simple, method, _, rfl, parts,
          (replaced_constructorName_iff _ _ _).mpr rfl, rfl⟩
    · intro form
      obtain ⟨arguments, outer, simple, method, shown, read, parts, replaced, assembled⟩ := form
      rw [canonical_eq_map inOwner inName opens parts, read,
        ← (replaced_constructorName_iff _ _ _).mp replaced, assembled]
      rfl

/-- A constructor of a nested class, its owner in two spellings. -/
theorem canonical_nested_constructor :
    '(' ∉ "pkg/Outer$Inner".toList ∧ '(' ∉ "<init>".toList ∧
    "(Ljava/util/Map$Entry;)V".toList.head? = some '(' ∧
    canonical "pkg/Outer$Inner" "<init>" "(Ljava/util/Map$Entry;)V" =
      .ok "pkg.Outer.Inner#Inner(java.util.Map$Entry)" ∧
    canonical "pkg.Outer.Inner" "<init>" "(Ljava/util/Map$Entry;)V" =
      .ok "pkg.Outer.Inner#Inner(java.util.Map$Entry)" := by
  have inOwner : '(' ∉ "pkg/Outer$Inner".toList := by decide
  have inName : '(' ∉ "<init>".toList := by decide
  have opens : "(Ljava/util/Map$Entry;)V".toList.head? = some '(' := rfl
  obtain ⟨-, assembled, -, alike⟩ := canonical_assembles_parts inOwner inName opens
  have read : Descriptor.argumentTypes "(Ljava/util/Map$Entry;)V" = .ok ["java.util.Map$Entry"] := by
    decide +kernel
  have parts : segments "pkg/Outer$Inner" "<init>" =
      ["pkg".toList, "Outer".toList] ++ ["Inner".toList, "<init>".toList] := by decide +kernel
  have replaced : Text.Replaced constructorName "Inner".toList "<init>".toList "Inner".toList :=
    ⟨[[], []], by decide, rfl, rfl⟩
  have flat : flatten "pkg.Outer.Inner".toList = flatten "pkg/Outer$Inner".toList := by decide
  have nested : canonical "pkg/Outer$Inner" "<init>" "(Ljava/util/Map$Entry;)V" =
      .ok "pkg.Outer.Inner#Inner(java.util.Map$Entry)" :=
    (assembled _).mpr ⟨_, _, _, _, _, read, parts, replaced, by decide +kernel⟩
  exact ⟨inOwner, inName, opens, nested, (alike _ flat).trans nested⟩

end JarCensus.Signature
