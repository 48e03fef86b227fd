import JarCensus.Failure

/-! Work on many items that need not be done in order. How threads share the items out, and which of
them is done first, is left open: whatever is said of a pass holds for all ways of doing it. -/
namespace JarCensus

/-- Threads that work on items side by side. Results stand in the order of the items. If items fail,
all of the work fails as one of them did, no matter which. -/
structure Workers where
  /-- Sets up a pool of so many threads. -/
  build (threads : Nat) : Except ForeignError Unit
  /-- The results of all items, on a number of threads or on as many as there are by default. -/
  gather {α β : Type} (threads : Option Nat) (work : α → Except Failure β) (items : List α) :
    Except Failure (List β)
  gather_eq_ok_iff {α β : Type} (threads : Option Nat) (work : α → Except Failure β)
    (items : List α) (results : List β) :
    gather threads work items = .ok results ↔ items.map work = results.map .ok
  gather_eq_error {α β : Type} (threads : Option Nat) (work : α → Except Failure β)
    (items : List α) (failure : Failure) (failed : gather threads work items = .error failure) :
    ∃ item ∈ items, work item = .error failure

theorem mapM_eq_ok_iff {ε α β : Type} (work : α → Except ε β) (items : List α)
    (results : List β) : items.mapM work = .ok results ↔ items.map work = results.map .ok := by
  induction items generalizing results with
  | nil => cases results <;> simp [pure, Except.pure]
  | cons item items ih =>
    rw [List.mapM_cons]
    cases first : work item with
    | error failure => cases results <;> simp [bind, Except.bind, first]
    | ok result =>
      cases others : items.mapM work with
      | error failure => cases results <;> simp [bind, Except.bind, first, ← ih, others]
      | ok rest =>
        cases results <;> simp [bind, Except.bind, pure, Except.pure, first, ← ih, others]

theorem mapM_eq_error {ε α β : Type} (work : α → Except ε β) (items : List α) (failure : ε)
    (failed : items.mapM work = .error failure) : ∃ item ∈ items, work item = .error failure := by
  induction items with
  | nil => simp [pure, Except.pure] at failed
  | cons item items ih =>
    rw [List.mapM_cons] at failed
    cases first : work item with
    | error other =>
      obtain rfl : other = failure := by simpa [bind, Except.bind, first] using failed
      exact ⟨item, .head _, first⟩
    | ok result =>
      cases others : items.mapM work with
      | error other =>
        obtain rfl : other = failure := by
          simpa [bind, Except.bind, first, others] using failed
        obtain ⟨later, member, fails⟩ := ih others
        exact ⟨later, .tail _ member, fails⟩
      | ok rest => simp [bind, Except.bind, pure, Except.pure, first, others] at failed

/-- One item after the other, up to the first failure. -/
def Workers.inOrder : Workers where
  build _ := .ok ()
  gather _ work items := items.mapM work
  gather_eq_ok_iff _ := mapM_eq_ok_iff
  gather_eq_error _ := mapM_eq_error

/-- A pool is set up only for threads that are asked for by number. -/
def Workers.setUp (workers : Workers) : (threads : Option Nat) → Except Failure Unit
  | none => .ok ()
  | some threads => foreignDuring .buildPool (workers.build threads)

end JarCensus
