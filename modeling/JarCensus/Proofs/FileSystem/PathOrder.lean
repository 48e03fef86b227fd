import JarCensus.FileSystem.Path
import JarCensus.Proofs.Text.Pieces
import Mathlib.Data.List.Infix
import Mathlib.Data.List.Sort
import Mathlib.Tactic.MkIffOfInductiveProp

/-! Paths compare component by component. A path that is extended by names has the components of
what it extends and then the names, so extensions of one path compare like the names, and what comes
between two paths below a directory lies below it as well. -/
namespace JarCensus

namespace Path

theorem parts_eq (path : Path) : path.parts = path.bytes.splitOn slash := by
  obtain ⟨first, others, cut⟩ := List.exists_cons_of_ne_nil
    (List.splitOnP_ne_nil (· = slash) path.bytes)
  rw [parts, Text.pieces, Text.piecesFrom_eq, cut]
  exact cut.symm

/-- A name that a directory can list. -/
@[mk_iff]
structure IsName (name : Name) : Prop where
  solid : isIdle name = false
  notUp : name ≠ up
  noSlash : slash ∉ name

instance (name : Name) : Decidable (IsName name) := decidable_of_iff' _ (isName_iff name)

/-- `a` comes before `b` in path order. -/
def Precedes (a b : Path) : Prop := a.key < b.key

section Extension

variable {base : Path} {names : List Name}

theorem parts_ne_nil (path : Path) : path.parts ≠ [] := by
  rw [parts_eq]
  exact List.splitOnP_ne_nil _ _

/-- Where a path is extended its parts stay, but for an empty one after a slash at its end. -/
theorem exists_parts_join (some : base.bytes ≠ []) (listed : ∀ name ∈ names, IsName name)
    (named : names ≠ []) :
    ∃ front rest, front ≠ [] ∧ (∀ part ∈ rest, isIdle part = true) ∧ base.parts = front ++ rest ∧
      (base.join (ofParts names).bytes).parts = front ++ names := by
  have cut : (List.intercalate [slash] names).splitOn slash = names :=
    List.splitOn_intercalate slash (fun name member => (listed name member).noSlash) named
  by_cases slashed : base.bytes.getLast? = .some slash
  · obtain ⟨front, spelled⟩ := List.getLast?_eq_some_iff.mp slashed
    refine ⟨(⟨front⟩ : Path).parts, [[]], parts_ne_nil _, by simp [isIdle], ?_, ?_⟩
    · rw [parts_eq, parts_eq, spelled]
      exact List.splitOn_append_cons_self front []
    · rw [parts_eq, parts_eq, join, if_pos (by simp [slashed]), spelled]
      dsimp only [ofParts]
      rw [List.append_assoc, List.singleton_append, List.splitOn_append_cons_self, cut]
  · refine ⟨base.parts, [], parts_ne_nil _, nofun, by simp, ?_⟩
    rw [parts_eq, parts_eq, join, if_neg (by simp [slashed, some])]
    dsimp only [ofParts]
    rw [List.splitOn_append_cons_self, cut]

theorem isAbsolute_join (some : base.bytes ≠ []) (name : List UInt8) :
    (base.join name).isAbsolute = base.isAbsolute := by
  obtain ⟨first, others, spelled⟩ := List.exists_cons_of_ne_nil some
  rw [join]
  split <;> simp [isAbsolute, spelled]

theorem filter_names (listed : ∀ name ∈ names, IsName name) :
    (names.filter (!isIdle ·)).map Component.ofPart = names.map Component.down := by
  rw [List.filter_eq_self.mpr fun name member => by simp [(listed name member).solid]]
  apply List.map_congr_left
  intro name member
  exact if_neg (listed name member).notUp

/-- Names that a path is extended by are its last components. -/
theorem components_join (some : base.bytes ≠ []) (listed : ∀ name ∈ names, IsName name)
    (named : names ≠ []) :
    (base.join (ofParts names).bytes).components =
      base.components ++ names.map Component.down := by
  obtain ⟨front, rest, nonempty, idle, parts, extended⟩ := exists_parts_join some listed named
  have dropped : rest.filter (!isIdle ·) = [] :=
    List.filter_eq_nil_iff.mpr fun part member => by simp [idle part member]
  have first : (front ++ names).head? = (front ++ rest).head? := by
    rw [List.head?_append_of_ne_nil _ nonempty, List.head?_append_of_ne_nil _ nonempty]
  rw [components, components, isAbsolute_join some, extended, parts, first, List.filter_append,
    List.filter_append, dropped, List.append_nil, List.map_append, filter_names listed,
    List.append_assoc]

end Extension

section Order

theorem Component.key_injective : Function.Injective Component.key := by
  intro a b same
  cases a <;> cases b <;> simp_all [Component.key]

theorem Precedes.irrefl (path : Path) : ¬path.Precedes path := List.lt_irrefl path.key

instance : Std.Asymm Precedes := ⟨fun _ _ less more => List.lt_asymm less more⟩

theorem before_trans (a b c : Path) (first : a.before b = true) (second : b.before c = true) :
    a.before c = true := by
  rw [before, decide_eq_true_eq] at first second ⊢
  exact List.le_trans first second

theorem before_total (a b : Path) : (a.before b || b.before a) = true := by
  rw [Bool.or_eq_true, before, before, decide_eq_true_eq, decide_eq_true_eq]
  exact List.le_total a.key b.key

theorem precedes_of_before {a b : Path} (before : a.before b = true) (different : a.key ≠ b.key) :
    a.Precedes b := by
  rw [Path.before, decide_eq_true_eq] at before
  exact Std.lt_of_le_of_ne before different

/-- What comes between two lists with a common start has that start. -/
theorem prefix_of_between {lead a b c : List (List UInt8)} (low : lead <+: a) (high : lead <+: c)
    (first : a < b) (second : b < c) : lead <+: b := by
  induction lead generalizing a b c with
  | nil => exact List.nil_prefix
  | cons key lead ih =>
    obtain ⟨a, rfl⟩ := low
    obtain ⟨c, rfl⟩ := high
    cases b with
    | nil => exact absurd first (List.not_lt_nil _)
    | cons key' b =>
      rw [List.cons_append] at first second
      rcases List.cons_lt_cons_iff.mp first with less | ⟨rfl, lower⟩
      · rcases List.cons_lt_cons_iff.mp second with more | ⟨rfl, -⟩
        · exact absurd more (List.lt_asymm less)
        · exact absurd less (List.lt_irrefl _)
      · rcases List.cons_lt_cons_iff.mp second with more | ⟨-, upper⟩
        · exact absurd more (List.lt_irrefl _)
        · exact List.cons_prefix_cons.mpr ⟨rfl, ih ⟨a, rfl⟩ ⟨c, rfl⟩ lower upper⟩

/-- The path lies below the directory, or is the directory's own. -/
def LiesBelow (directory path : Path) : Prop := directory.components <+: path.components

theorem liesBelow_iff (directory path : Path) :
    LiesBelow directory path ↔ directory.key <+: path.key :=
  (List.prefix_map_iff_of_injective Component.key_injective).symm

theorem LiesBelow.between {directory a b c : Path} (low : LiesBelow directory a)
    (high : LiesBelow directory c) (first : a.Precedes b) (second : b.Precedes c) :
    LiesBelow directory b := by
  rw [liesBelow_iff] at low high ⊢
  exact prefix_of_between low high first second

end Order

section Contiguous

/-- The paths of an ordered list that lie below a directory stand next to each other. -/
theorem exists_contiguous {paths : List Path} (ordered : paths.Pairwise Precedes)
    (directory : Path) :
    ∃ before within after, paths = before ++ (within ++ after) ∧
      (∀ path ∈ within, LiesBelow directory path) ∧
      ∀ path ∈ before ++ after, ¬LiesBelow directory path := by
  induction paths with
  | nil => exact ⟨[], [], [], rfl, nofun, nofun⟩
  | cons path paths ih =>
    obtain ⟨least, ordered⟩ := List.pairwise_cons.mp ordered
    obtain ⟨before, within, after, rfl, inside, outside⟩ := ih ordered
    by_cases below : LiesBelow directory path
    · cases within with
      | nil =>
        exact ⟨[], [path], before ++ after, rfl, List.forall_mem_singleton.mpr below, outside⟩
      | cons first within =>
        cases before with
        | nil =>
          exact ⟨[], path :: first :: within, after, rfl,
            List.forall_mem_cons.mpr ⟨below, inside⟩, outside⟩
        | cons other before =>
          -- it would stand between two paths below the directory
          have low : path.Precedes other := least other List.mem_cons_self
          have high : other.Precedes first :=
            (List.pairwise_cons.mp ordered).1 first (by simp)
          exact absurd (below.between (inside first List.mem_cons_self) low high)
            (outside other List.mem_cons_self)
    · refine ⟨path :: before, within, after, rfl, inside, ?_⟩
      rw [List.cons_append]
      exact List.forall_mem_cons.mpr ⟨below, outside⟩

end Contiguous

end Path
end JarCensus
