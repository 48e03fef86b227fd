import JarCensus.Workers

/-! When a computation that may fail succeeds: steps in sequence succeed together and fail with the
first that fails, and saying what was being done changes failures only. -/
namespace JarCensus

variable {ε ε' α β : Type}

theorem bind_eq_ok_iff (first : Except ε α) (next : α → Except ε β) (b : β) :
    (first >>= next) = .ok b ↔ ∃ a, first = .ok a ∧ next a = .ok b := by
  cases first with
  | error e => simp [bind, Except.bind]
  | ok a => simp [bind, Except.bind]

theorem bind_eq_error_iff (first : Except ε α) (next : α → Except ε β) (e : ε) :
    (first >>= next) = .error e ↔ first = .error e ∨ ∃ a, first = .ok a ∧ next a = .error e := by
  cases first with
  | error e => simp [bind, Except.bind]
  | ok a => simp [bind, Except.bind]

theorem foldlM_eq_error_iff (step : β → α → Except ε β) (initial : β) (items : List α) (e : ε) :
    items.foldlM step initial = .error e ↔
      ∃ earlier item later reached, items = earlier ++ item :: later ∧
        earlier.foldlM step initial = .ok reached ∧ step reached item = .error e := by
  induction items generalizing initial with
  | nil => simp [pure, Except.pure]
  | cons item items ih =>
    rw [List.foldlM_cons, bind_eq_error_iff]
    constructor
    · rintro (failed | ⟨next, stepped, failed⟩)
      · exact ⟨[], item, items, initial, rfl, rfl, failed⟩
      · obtain ⟨earlier, other, later, reached, rfl, folded, failed⟩ := (ih next).mp failed
        refine ⟨item :: earlier, other, later, reached, rfl, ?_, failed⟩
        rw [List.foldlM_cons, bind_eq_ok_iff]
        exact ⟨next, stepped, folded⟩
    · rintro ⟨_ | ⟨first, earlier⟩, other, later, reached, shape, folded, failed⟩
      · obtain ⟨rfl, rfl⟩ := List.cons.inj shape
        cases folded
        exact .inl failed
      · obtain ⟨rfl, rfl⟩ := List.cons.inj shape
        rw [List.foldlM_cons, bind_eq_ok_iff] at folded
        obtain ⟨next, stepped, folded⟩ := folded
        exact .inr ⟨next, stepped, (ih next).mpr
          ⟨earlier, other, later, reached, rfl, folded, failed⟩⟩

theorem mapM_id_eq_ok_iff (results : List (Except ε α)) (values : List α) :
    results.mapM id = .ok values ↔ results = values.map .ok := by
  rw [mapM_eq_ok_iff, List.map_id]

/-- Of several errors the first counts. -/
theorem mapM_id_eq_error_iff (results : List (Except ε α)) (e : ε) :
    results.mapM id = .error e ↔
      ∃ (values : List α) (later : List (Except ε α)),
        results = values.map .ok ++ .error e :: later := by
  induction results with
  | nil => simp [pure, Except.pure]
  | cons result results ih =>
    rw [List.mapM_cons]
    cases result with
    | error first =>
      constructor
      · rintro ⟨⟩
        exact ⟨[], results, rfl⟩
      · rintro ⟨_ | ⟨value, values⟩, later, shape⟩
        · cases shape
          rfl
        · cases shape
    | ok value =>
      have onward : (do let values ← results.mapM id; return value :: values) = .error e ↔
          results.mapM id = .error e := by
        cases results.mapM id <;> simp [bind, Except.bind, pure, Except.pure]
      refine onward.trans (ih.trans ?_)
      constructor
      · rintro ⟨values, later, rfl⟩
        exact ⟨value :: values, later, rfl⟩
      · rintro ⟨_ | ⟨first, values⟩, later, shape⟩
        · cases shape
        · exact ⟨values, later, (List.cons.inj shape).2⟩

theorem mapError_eq_ok_iff (f : ε → ε') (result : Except ε α) (a : α) :
    result.mapError f = .ok a ↔ result = .ok a := by
  cases result with
  | error e => exact iff_of_false nofun nofun
  | ok b =>
    constructor
    · intro same
      cases same
      rfl
    · rintro ⟨⟩
      rfl

theorem mapError_eq_error_iff (f : ε → ε') (result : Except ε α) (e' : ε') :
    result.mapError f = .error e' ↔ ∃ e, result = .error e ∧ e' = f e := by
  cases result with
  | error e =>
    constructor
    · intro same
      cases same
      exact ⟨e, rfl, rfl⟩
    · rintro ⟨_, ⟨⟩, rfl⟩
      rfl
  | ok a =>
    refine iff_of_false nofun ?_
    rintro ⟨_, ⟨⟩, _⟩

theorem during_eq_ok_iff (context : Context) (result : Except Failure α) (a : α) :
    during context result = .ok a ↔ result = .ok a :=
  mapError_eq_ok_iff _ result a

theorem ioDuring_eq_ok_iff (context : Context) (result : Except IoError α) (a : α) :
    ioDuring context result = .ok a ↔ result = .ok a :=
  mapError_eq_ok_iff _ result a

theorem foreignDuring_eq_ok_iff (context : Context) (result : Except ForeignError α) (a : α) :
    foreignDuring context result = .ok a ↔ result = .ok a :=
  mapError_eq_ok_iff _ result a

theorem foreignDuring_eq_error_iff (context : Context) (result : Except ForeignError α)
    (failure : Failure) :
    foreignDuring context result = .error failure ↔
      ∃ error, result = .error error ∧ failure = ⟨[context], .foreign error⟩ :=
  mapError_eq_error_iff _ result failure

theorem formatDuring_eq_ok_iff (context : Context) (result : Except FormatError α) (a : α) :
    formatDuring context result = .ok a ↔ result = .ok a :=
  mapError_eq_ok_iff _ result a

theorem formatDuring_eq_error_iff (context : Context) (result : Except FormatError α)
    (failure : Failure) :
    formatDuring context result = .error failure ↔
      ∃ error, result = .error error ∧ failure = ⟨[context], .format error⟩ :=
  mapError_eq_error_iff _ result failure

theorem toOption_eq_some_iff (result : Except ε α) (a : α) :
    result.toOption = some a ↔ result = .ok a := by
  cases result <;> simp [Except.toOption]

end JarCensus
