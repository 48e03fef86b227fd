import JarCensus.FileSystem.Scan
import JarCensus.Proofs.FileSystem.Names
import JarCensus.Proofs.Results

/-! What a scan finds. A search that comes past everything below a directory once, in whatever order
its threads are, leaves the scan with the same paths. Names lead to one place each, so two paths
below a base are never level in path order, and sorting leaves nothing to chance. A search that
meets errors leaves the scan with the first of them. -/
namespace JarCensus

namespace FileTree

/-- Before their last, `names` lead from `top` through real directories only. -/
def Passes (tree : FileTree) (top : Place) (names : List Name) : Prop :=
  ∀ upper, upper <+: names → upper ≠ [] → upper ≠ names →
    tree.get? (top ++ upper) = some .directory

/-- `names` lead from `top` to `object` through real directories. -/
structure Below (tree : FileTree) (top : Place) (names : List Name) (object : Object) : Prop where
  further : names ≠ []
  passes : tree.Passes top names
  there : tree.get? (top ++ names) = some object

/-- `entries` has all that lies below `top`, each once and in any order. -/
structure Lists (tree : FileTree) (top : Place) (entries : List (List Name × Object)) : Prop where
  once : (entries.map Prod.fst).Nodup
  complete : ∀ names object, (names, object) ∈ entries ↔ tree.Below top names object

section Below

variable {tree : FileTree} {top : Place} {names : List Name} {object : Object}

theorem passes_cons_iff (tree : FileTree) (top : Place) (name next : Name) (rest : List Name) :
    tree.Passes top (name :: next :: rest) ↔
      tree.get? (top ++ [name]) = some .directory ∧ tree.Passes (top ++ [name]) (next :: rest) := by
  constructor
  · intro passes
    refine ⟨passes [name] ⟨next :: rest, rfl⟩ (by simp) (by simp), ?_⟩
    intro upper leads nonempty proper
    rw [List.append_assoc]
    exact passes (name :: upper) (List.cons_prefix_cons.mpr ⟨rfl, leads⟩) (by simp) (by simpa)
  · rintro ⟨first, passes⟩ upper leads nonempty proper
    rcases List.prefix_cons_iff.mp leads with rfl | ⟨more, rfl, onward⟩
    · exact absurd rfl nonempty
    · by_cases last : more = []
      · rw [last]
        exact first
      · have further := passes more onward last (by simpa using proper)
        rwa [List.append_assoc] at further

theorem throughDirectories_iff (tree : FileTree) (top : Place) (names : List Name) :
    tree.throughDirectories top names = true ↔ tree.Passes top names := by
  fun_induction tree.throughDirectories top names with
  | case1 top => simp [Passes]
  | case2 top name =>
    refine iff_of_true rfl ?_
    intro upper leads nonempty proper
    rcases List.prefix_cons_iff.mp leads with rfl | ⟨more, rfl, onward⟩
    · exact absurd rfl nonempty
    · obtain rfl := List.prefix_nil.mp onward
      exact absurd rfl proper
  | case3 top name rest some directory ih =>
    obtain ⟨next, rest, rfl⟩ := List.exists_cons_of_ne_nil (fun none => some none)
    rw [ih, passes_cons_iff]
    exact (and_iff_right directory).symm
  | case4 top name rest some other =>
    obtain ⟨next, rest, rfl⟩ := List.exists_cons_of_ne_nil (fun none => some none)
    rw [passes_cons_iff]
    refine iff_of_false (by simp) ?_
    rintro ⟨directory, -⟩
    exact other directory

theorem namesBelow?_eq_some_iff (tree : FileTree) (top place : Place) (names : List Name) :
    tree.namesBelow? top place = some names ↔
      place = top ++ names ∧ names ≠ [] ∧ tree.Passes top names := by
  rw [namesBelow?, ← throughDirectories_iff]
  constructor
  · intro found
    split at found
    next leads =>
      simp only [Bool.and_eq_true, List.isPrefixOf_iff_prefix, decide_eq_true_eq] at leads
      obtain ⟨⟨⟨rest, rfl⟩, longer⟩, through⟩ := leads
      rw [List.drop_left] at found through
      cases found
      refine ⟨rfl, ?_, through⟩
      rintro rfl
      simp at longer
    next => cases found
  · rintro ⟨rfl, further, through⟩
    have longer : top.length < (top ++ names).length := by
      rw [List.length_append]
      exact Nat.lt_add_of_pos_right (List.length_pos_of_ne_nil further)
    have leads : top.isPrefixOf (top ++ names) = true :=
      List.isPrefixOf_iff_prefix.mpr (List.prefix_append top names)
    simp [leads, further, through]

theorem mem_toList_iff {place : Place} (further : place ≠ []) :
    (place, object) ∈ tree.toList ↔ tree.get? place = some object := by
  rw [toList, get?, if_neg (by simpa using further), Std.ExtTreeMap.mem_toList_iff_getElem?_eq_some]

theorem mem_below_iff (tree : FileTree) (top : Place) (names : List Name) (object : Object) :
    (names, object) ∈ tree.below top ↔ tree.Below top names object := by
  have further (some : names ≠ []) : top ++ names ≠ [] := by simp [some]
  simp only [below, List.mem_filterMap, Option.map_eq_some_iff, namesBelow?_eq_some_iff,
    Prod.exists, Prod.mk.injEq]
  constructor
  · rintro ⟨place, object, member, _, ⟨rfl, some, passes⟩, rfl, rfl⟩
    exact ⟨some, passes, (mem_toList_iff (by simp [some])).mp member⟩
  · rintro ⟨some, passes, there⟩
    exact ⟨_, object, (mem_toList_iff (further some)).mpr there, names, ⟨rfl, some, passes⟩, rfl,
      rfl⟩

theorem Below.areNames (below : tree.Below top names object) (named : tree.Named) :
    Path.AreNames names :=
  fun name member => named _ _ below.there name (List.mem_append_right top member)

theorem lists_below (tree : FileTree) (top : Place) : tree.Lists top (tree.below top) := by
  refine ⟨?_, tree.mem_below_iff top⟩
  rw [below, List.map_filterMap, List.Nodup]
  refine List.Pairwise.filterMap _ ?_ Std.ExtTreeMap.distinct_keys_toList
  intro entry other different names found names' found'
  rintro rfl
  simp only [Option.map_map, Option.map_eq_some_iff, namesBelow?_eq_some_iff] at found found'
  obtain ⟨_, ⟨place, -⟩, rfl⟩ := found
  obtain ⟨_, ⟨place', -⟩, same⟩ := found'
  refine different (Std.compare_eq_iff_eq.mpr ?_)
  rw [place, place']
  exact congrArg (top ++ ·) same.symm

theorem Lists.perm {entries entries' : List (List Name × Object)} (lists : tree.Lists top entries)
    (rearranged : entries.Perm entries') : tree.Lists top entries' where
  once := (rearranged.map Prod.fst).nodup_iff.mp lists.once
  complete names object := by rw [← rearranged.mem_iff, lists.complete]

end Below

end FileTree

namespace Walker

/-- The search comes past all that lies below `top`, each once and in any order, and meets no
error. -/
def Completes (walker : Walker) (files : Workspace) (base : Path) (top : Place) : Prop :=
  ∃ entries, walker.deliver files base top = entries.map .ok ∧ files.tree.Lists top entries

/-- One thread alone misses nothing if every directory can be opened. -/
theorem inOrder_completes {files : Workspace} {base : Path} {top : Place}
    (searched : isStandardInput base = false)
    (opens : (files.tree.below top).all (fun entry => (fault? files base entry.1 entry.2).isNone)) :
    inOrder.Completes files base top := by
  refine ⟨files.tree.below top, ?_, files.tree.lists_below top⟩
  simp only [inOrder, searched, Bool.false_eq_true, if_false]
  rw [List.map_eq_flatMap]
  apply List.flatMap_congr
  intro entry member
  have faultless := Option.isNone_iff_eq_none.mp (List.all_eq_true.mp opens entry member)
  rw [faultless]
  rfl

end Walker

namespace Workspace

/-- What counts as a file: a regular file, or a link whose path leads to one. -/
def CountsAsFile (files : Workspace) (path : Path) : Object → Prop
  | .file _ => True
  | .directory => False
  | .link _ => ∃ place content, files.find path = .ok (place, .file content)

theorem isFile_iff (files : Workspace) (path : Path) :
    files.isFile path = true ↔ ∃ place content, files.find path = .ok (place, .file content) := by
  rw [isFile]
  cases files.find path with
  | error error => simp
  | ok found =>
    obtain ⟨place, object⟩ := found
    cases object <;> simp

theorem filePath?_eq_some_iff (files : Workspace) (base : Path) (names : List Name)
    (object : Object) (path : Path) :
    files.filePath? base names object = some path ↔
      path = pathBelow base names ∧ files.CountsAsFile path object := by
  cases object with
  | file content => simp [filePath?, CountsAsFile, eq_comm]
  | directory => simp [filePath?, CountsAsFile]
  | link target =>
    rw [filePath?, CountsAsFile, ← isFile_iff]
    by_cases file : files.isFile (pathBelow base names) = true
    · rw [if_pos file, Option.some.injEq]
      constructor
      · rintro rfl
        exact ⟨rfl, file⟩
      · rintro ⟨rfl, -⟩
        rfl
    · rw [if_neg file]
      refine iff_of_false (by simp) ?_
      rintro ⟨rfl, leads⟩
      exact file leads

section Scan

variable {files : Workspace} {base : Path} {top : Place}

/-- Paths below a base are level only if the same names lead to them. -/
theorem key_pathBelow_inj {names names' : List Name} {object object' : Object}
    (named : files.tree.Named) (spelled : base.bytes ≠ [])
    (below : files.tree.Below top names object) (below' : files.tree.Below top names' object') :
    (pathBelow base names).key = (pathBelow base names').key ↔ names = names' := by
  rw [Path.key, Path.key, (List.map_injective_iff.mpr Path.Component.key_injective).eq_iff,
    pathBelow, pathBelow, Path.components_join spelled (below.areNames named) below.further,
    Path.components_join spelled (below'.areNames named) below'.further,
    List.append_cancel_left_eq]
  exact (List.map_injective_iff.mpr fun name name' same => by injection same).eq_iff

variable {entries : List (List Name × Object)}

theorem mem_filesAmong_iff (delivers : files.tree.Lists top entries) (path : Path) :
    path ∈ files.filesAmong base entries ↔
      ∃ names object, files.tree.Below top names object ∧ path = pathBelow base names ∧
        files.CountsAsFile path object := by
  simp only [filesAmong, List.mem_filterMap, Prod.exists, filePath?_eq_some_iff, delivers.complete]

theorem keys_filesAmong_nodup (named : files.tree.Named) (spelled : base.bytes ≠ [])
    (delivers : files.tree.Lists top entries) :
    ((files.filesAmong base entries).map Path.key).Nodup := by
  have once : entries.Pairwise fun entry other =>
      (pathBelow base entry.1).key ≠ (pathBelow base other.1).key := by
    refine (List.pairwise_map.mp delivers.once).imp_of_mem ?_
    intro entry other member member' different
    exact mt (key_pathBelow_inj named spelled ((delivers.complete _ _).mp member)
      ((delivers.complete _ _).mp member')).mp different
  refine List.pairwise_map.mpr (once.filterMap _ ?_)
  intro entry other different path counts path' counts'
  rw [((filePath?_eq_some_iff ..).mp counts).1, ((filePath?_eq_some_iff ..).mp counts').1]
  exact different

theorem sort_filesAmong_ordered (named : files.tree.Named) (spelled : base.bytes ≠ [])
    (delivers : files.tree.Lists top entries) :
    (Path.sort (files.filesAmong base entries)).Pairwise Path.Precedes := by
  have sorted := List.pairwise_mergeSort Path.before_trans Path.before_total
    (files.filesAmong base entries)
  have distinct : ((Path.sort (files.filesAmong base entries)).map Path.key).Nodup := by
    rw [Path.sort, ((List.mergeSort_perm _ _).map Path.key).nodup_iff]
    exact keys_filesAmong_nodup named spelled delivers
  refine (sorted.and (List.pairwise_map.mp distinct)).imp ?_
  rintro path other ⟨before, different⟩
  exact Path.precedes_of_before before different

theorem scan_eq_ok (found : files.find base = .ok (top, .directory)) {walker : Walker}
    (delivered : walker.deliver files base top = entries.map .ok) :
    files.scan base walker = .ok (Path.sort (files.filesAmong base entries)) := by
  rw [scan, found]
  refine (bind_eq_ok_iff ..).mpr ⟨entries, ?_, rfl⟩
  rw [foreignDuring_eq_ok_iff, mapM_id_eq_ok_iff, delivered]

/-- A directory is not scanned exactly if the search of it meets an error, and the first one is
reported. -/
theorem scan_eq_error_iff (found : files.find base = .ok (top, .directory)) (walker : Walker)
    (failure : Failure) :
    files.scan base walker = .error failure ↔
      ∃ (entries : List (List Name × Object)) (error : ForeignError) (later : List Arrival),
        walker.deliver files base top = entries.map .ok ++ .error error :: later ∧
        failure = ⟨[.walk base], .foreign error⟩ := by
  have sorts (entries : List (List Name × Object)) :
      ¬(pure (Path.sort (files.filesAmong base entries)) : Except Failure (List Path)) =
        .error failure := by
    intro failed
    cases failed
  rw [scan, found]
  simp only [bind_eq_error_iff, sorts, and_false, exists_false, or_false,
    foreignDuring_eq_error_iff, mapM_id_eq_error_iff]
  constructor
  · rintro ⟨error, ⟨entries, later, delivered⟩, rfl⟩
    exact ⟨entries, error, later, delivered, rfl⟩
  · rintro ⟨entries, error, later, delivered, rfl⟩
    exact ⟨error, ⟨entries, later, delivered⟩, rfl⟩

/-- Paths that are found in path order are left as they are. -/
theorem scan_eq_ok_of_sorted {paths : List Path}
    (found : files.find base = .ok (top, .directory)) (walker : Walker)
    (delivered : (((walker.deliver files base top).mapM id).map (files.filesAmong base)).toOption =
      some paths)
    (sorted : paths.Pairwise fun path other => path.before other = true) :
    files.scan base walker = .ok paths := by
  cases arrived : (walker.deliver files base top).mapM id with
  | error error => simp [arrived, Except.map, Except.toOption] at delivered
  | ok entries =>
    obtain rfl : files.filesAmong base entries = paths := by
      simpa [arrived, Except.map, Except.toOption] using delivered
    rw [scan_eq_ok found ((mapM_id_eq_ok_iff ..).mp arrived), Path.sort,
      List.mergeSort_of_pairwise sorted]

theorem bytes_ne_nil_of_find {object : Object} (found : files.find base = .ok (top, object)) :
    base.bytes ≠ [] := by
  have spelled := (locate_eq_ok_iff.mp (find_eq_ok_iff.mp found)).2.1
  rwa [List.isEmpty_iff] at spelled

end Scan

/-- A scan of a directory, or of a link to one, finds the files below it that real directories lead
to: regular files, and links that lead to one, whatever their names. Each is found once and they are
in path order, those below a common directory next to each other. The order in which a search comes
past them does not matter. -/
theorem scan_finds_every_file (files : Workspace) (base : Path) {top : Place} (walker : Walker)
    (named : files.tree.Named) (found : files.find base = .ok (top, .directory))
    (completes : walker.Completes files base top) :
    ∃ paths, files.scan base walker = .ok paths ∧
      (∀ path, path ∈ paths ↔
        ∃ names object, files.tree.Below top names object ∧ path = pathBelow base names ∧
          files.CountsAsFile path object) ∧
      paths.Nodup ∧ paths.Pairwise Path.Precedes ∧
      (∀ walker' : Walker, walker'.Completes files base top →
        files.scan base walker' = .ok paths) ∧
      ∀ directory, ∃ before within after, paths = before ++ (within ++ after) ∧
        (∀ path ∈ within, Path.LiesBelow directory path) ∧
        ∀ path ∈ before ++ after, ¬Path.LiesBelow directory path := by
  have spelled := bytes_ne_nil_of_find found
  have members {entries : List (List Name × Object)} (lists : files.tree.Lists top entries)
      (path : Path) :
      path ∈ Path.sort (files.filesAmong base entries) ↔
        ∃ names object, files.tree.Below top names object ∧ path = pathBelow base names ∧
          files.CountsAsFile path object := by
    rw [Path.sort, List.mem_mergeSort, mem_filesAmong_iff lists]
  obtain ⟨entries, delivered, lists⟩ := completes
  have ordered := sort_filesAmong_ordered named spelled lists
  refine ⟨_, scan_eq_ok found delivered, members lists, ?_, ordered, ?_,
    Path.exists_contiguous ordered⟩
  · refine ordered.imp ?_
    rintro path _ precedes rfl
    exact Path.Precedes.irrefl path precedes
  · rintro walker' ⟨entries', delivered', lists'⟩
    rw [scan_eq_ok found delivered', Except.ok.injEq]
    refine (sort_filesAmong_ordered named spelled lists').eq_of_mem_iff ordered ?_
    intro path
    rw [members lists', members lists]

/-- A directory `d` with the files `a/b.jar` and `a.jar`, a hidden link to the latter, a link to the
directory `a` and a link to nothing. -/
def drawer : Workspace :=
  let jar (name : UInt8) : Name := [name, 0x2E, 0x6A, 0x61, 0x72]
  ⟨FileTree.empty.put [[0x64]] .directory
    |>.put [[0x64], [0x61]] .directory
    |>.put [[0x64], [0x61], jar 0x62] (.file .empty)
    |>.put [[0x64], jar 0x61] (.file .empty)
    |>.put [[0x64], [0x2E, 0x78]] (.link (.ofString "a.jar"))
    |>.put [[0x64], [0x6C]] (.link (.ofString "a"))
    |>.put [[0x64], [0x7A]] (.link (.ofString "b.jar")), []⟩

theorem drawer_named : drawer.tree.Named := by
  refine .put (.put (.put (.put (.put (.put (.put FileTree.named_empty ?_ _) ?_ _) ?_ _) ?_ _) ?_ _)
    ?_ _) ?_ _ <;> decide +kernel

/-- A search that comes past everything in descending order. -/
def lateFirst : Walker where
  deliver files _ top := (files.tree.below top).reverse.map .ok

/-- The directory's own file comes after those of the directory `a`, though `.` comes before `/`. -/
theorem scan_drawer_lateFirst :
    drawer.find (.ofString "d") = .ok ([[0x64]], .directory) ∧
    lateFirst.Completes drawer (.ofString "d") [[0x64]] ∧
    drawer.scan (.ofString "d") lateFirst =
      .ok [.ofString "d/.x", .ofString "d/a/b.jar", .ofString "d/a.jar"] := by
  have found : drawer.find (.ofString "d") = .ok ([[0x64]], .directory) := rfl
  have completes : lateFirst.Completes drawer (.ofString "d") [[0x64]] :=
    ⟨_, rfl, (drawer.tree.lists_below [[0x64]]).perm (List.reverse_perm _).symm⟩
  have inOrderCompletes : Walker.inOrder.Completes drawer (.ofString "d") [[0x64]] :=
    Walker.inOrder_completes (by decide +kernel) (by decide +kernel)
  obtain ⟨paths, scanned, -, -, -, same, -⟩ :=
    scan_finds_every_file drawer (.ofString "d") lateFirst drawer_named found completes
  have inOrder : drawer.scan (.ofString "d") .inOrder =
      .ok [.ofString "d/.x", .ofString "d/a/b.jar", .ofString "d/a.jar"] :=
    scan_eq_ok_of_sorted found .inOrder (by decide +kernel) (by decide +kernel)
  refine ⟨found, completes, ?_⟩
  rw [scanned, ← same .inOrder inOrderCompletes, inOrder]

end Workspace

end JarCensus
