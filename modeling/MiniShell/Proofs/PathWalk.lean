import MiniShell.FileTree
import MiniShell.Proofs.Components

namespace MiniShell

/-!
# Where a path leads

The walk along a path is described by what it does at one piece.  A piece is looked at
only in a directory, so a path with a slash behind it leads to a directory, and a
walk may be interrupted at any piece and taken up from where it has got to.  This is
what makes a tracked directory as good as a current one: a path that is added to the path
of a directory leads to where it leads from this directory.

At a link the pieces of its target are put in front of the others.  What is said of the
pieces of a path is therefore said of all lists that end in them.
-/

/-- The node stands for itself. -/
def FileNode.IsPlain (node : FileNode) : Prop :=
  forall target, node ≠ .link target

theorem FileNode.isPlain_directory : directory.IsPlain :=
  fun _ impossible => by cases impossible

theorem FileNode.isPlain_file (contents : Bytes) : (file contents).IsPlain :=
  fun _ impossible => by cases impossible

/-- A component that is no beginning, as it is spelled in a path. -/
def Component.spelled : Component -> Path
  | .name spelling => spelling
  | _ => Path.dotDot

namespace FileTree

variable {tree : FileTree} {place between reached : Place} {piece : Bytes}
  {pieces front back : List Bytes} {used followed links : Nat}

/-- A piece that is looked up in a directory. -/
structure IsName (piece : Bytes) : Prop where
  isPart : Path.isPart piece = true
  notParent : piece ≠ Path.dotDot
  short : piece.length ≤ partLimit

theorem isName_iff :
    IsName piece ↔ (piece.isEmpty || piece == Path.dot) = false ∧ piece ≠ Path.dotDot ∧
      ¬ partLimit < piece.length := by
  constructor
  · intro name
    exact ⟨(Bool.not_eq_true' _).mp name.isPart, name.notParent, Nat.not_lt.mpr name.short⟩
  · rintro ⟨counts, notParent, short⟩
    exact ⟨(Bool.not_eq_true' _).mpr counts, notParent, Nat.not_lt.mp short⟩

/-! ## The walk -/

/-- What is done at a piece: the number of links that are used, the place at which the walk
goes on, and the pieces that are added to the others. -/
inductive Turn (tree : FileTree) (place : Place) : Bytes -> Nat -> Place -> List Bytes -> Prop
  | stay {piece : Bytes} (directory : tree.node? place = some .directory)
      (skipped : Path.isPart piece = false) : Turn tree place piece 0 place []
  | ascend (directory : tree.node? place = some .directory) :
      Turn tree place Path.dotDot 0 place.tail []
  | enter {piece : Bytes} {node : FileNode} (directory : tree.node? place = some .directory)
      (name : IsName piece) (found : tree.node? (piece :: place) = some node)
      (plain : node.IsPlain) : Turn tree place piece 0 (piece :: place) []
  | follow {piece : Bytes} {target : Path} (directory : tree.node? place = some .directory)
      (name : IsName piece) (found : tree.node? (piece :: place) = some (.link target)) :
      Turn tree place piece 1 (place.origin target) (target.splitOn Path.slash)

/-- From a place, the pieces lead to another one, and so many links are followed. -/
inductive Leads (tree : FileTree) : Nat -> Place -> List Bytes -> Place -> Prop
  | here {place : Place} : Leads tree 0 place [] place
  | step {used followed : Nat} {place next reached : Place} {piece : Bytes}
      {added pieces : List Bytes} (turn : Turn tree place piece used next added)
      (later : Leads tree followed next (added ++ pieces) reached) :
      Leads tree (followed + used) place (piece :: pieces) reached

theorem Turn.directory {next : Place} {added : List Bytes}
    (turn : tree.Turn place piece used next added) : tree.node? place = some .directory := by
  cases turn <;> assumption

theorem walk_turn {next : Place} {added : List Bytes}
    (turn : tree.Turn place piece used next added) (links : Nat) (pieces : List Bytes) :
    tree.walk (links + used) place (piece :: pieces) =
      tree.walk links next (added ++ pieces) := by
  rw [walk]
  cases turn with
  | stay directory skipped =>
      have nothing : (piece.isEmpty || piece == Path.dot) = true := by
        rwa [Path.isPart, Bool.not_eq_false'] at skipped
      simp only [directory, nothing, bne_self_eq_false, Bool.false_eq_true, if_false, if_true]
      rfl
  | ascend directory =>
      have counts : (Path.dotDot.isEmpty || Path.dotDot == Path.dot) = false := by decide
      simp only [directory, counts, bne_self_eq_false, Bool.false_eq_true, if_false, if_true]
      rfl
  | @enter piece node directory name found plain =>
      rcases isName_iff.mp name with ⟨counts, notParent, short⟩
      simp only [directory, counts, notParent, short, found, bne_self_eq_false,
        Bool.false_eq_true, if_false]
      cases node with
      | link target => exact absurd rfl (plain target)
      | file contents => rfl
      | directory => rfl
  | follow directory name found =>
      rcases isName_iff.mp name with ⟨counts, notParent, short⟩
      simp only [directory, counts, notParent, short, found, bne_self_eq_false,
        Bool.false_eq_true, if_false]

/-- A walk ends in a place exactly if the pieces lead there over no more links than are
allowed. -/
theorem walk_eq_ok_iff :
    tree.walk links place pieces = .ok reached ↔
      exists followed, followed ≤ links ∧ tree.Leads followed place pieces reached := by
  constructor
  · intro reaches
    fun_induction walk tree links place pieces with
    | case1 links place =>
        cases reaches
        exact ⟨0, Nat.zero_le links, .here⟩
    | case2 | case5 | case6 | case7 => cases reaches
    | case3 links place piece pieces directory nothing ih =>
        rcases ih reaches with ⟨followed, few, later⟩
        have skipped : Path.isPart piece = false := by rw [Path.isPart, nothing, Bool.not_true]
        exact ⟨followed, few, .step (.stay (by simpa using directory) skipped) later⟩
    | case4 links place pieces directory _ ih =>
        rcases ih reaches with ⟨followed, few, later⟩
        exact ⟨followed, few, .step (.ascend (by simpa using directory)) later⟩
    | case8 place piece pieces directory counts notParent short target found links ih =>
        rcases ih reaches with ⟨followed, few, later⟩
        have name := isName_iff.mpr ⟨Bool.eq_false_iff.mpr counts, notParent, short⟩
        have turn := Turn.follow (by simpa using directory) name found
        exact ⟨followed + 1, Nat.succ_le_succ few, .step turn later⟩
    | case9 links place piece pieces directory counts notParent short node plain found ih =>
        rcases ih reaches with ⟨followed, few, later⟩
        have name := isName_iff.mpr ⟨Bool.eq_false_iff.mpr counts, notParent, short⟩
        have turn := Turn.enter (by simpa using directory) name found plain
        exact ⟨followed, few, .step turn later⟩
  · rintro ⟨followed, few, leads⟩
    induction leads generalizing links with
    | here => rw [walk]
    | step turn _ ih =>
        rcases Nat.exists_eq_add_of_le' few with ⟨spare, same⟩
        subst same
        rw [← Nat.add_assoc, walk_turn turn]
        exact ih (Nat.le_add_left _ _)

/-- There is one place to which the pieces lead. -/
theorem Leads.unique {other : Place} {count : Nat}
    (leads : tree.Leads followed place pieces reached)
    (leads' : tree.Leads count place pieces other) : reached = other := by
  have first := walk_eq_ok_iff.mpr ⟨followed, Nat.le_max_left followed count, leads⟩
  have second := walk_eq_ok_iff.mpr ⟨count, Nat.le_max_right followed count, leads'⟩
  exact Except.ok.inj (first.symm.trans second)

/-! ## Interrupting a walk -/

/-- A walk along two lists is a walk along the first, and from where it ends, one along the
second. -/
theorem leads_append_iff :
    tree.Leads followed place (front ++ back) reached ↔
      exists first second between, second + first = followed ∧
        tree.Leads first place front between ∧ tree.Leads second between back reached := by
  constructor
  · intro leads
    generalize whole : front ++ back = pieces at leads
    induction leads generalizing front with
    | here =>
        rcases List.append_eq_nil_iff.mp whole with ⟨rfl, rfl⟩
        exact ⟨0, 0, _, rfl, .here, .here⟩
    | @step used followed place next reached piece added pieces turn later ih =>
        rcases List.append_eq_cons_iff.mp whole with ⟨rfl, rfl⟩ | ⟨rest, rfl, parts⟩
        · exact ⟨0, followed + used, place, rfl, .here, .step turn later⟩
        · have longer : (added ++ rest) ++ back = added ++ pieces := by
            rw [List.append_assoc, parts]
          rcases ih longer with ⟨first, second, between, total, before, after⟩
          refine ⟨first + used, second, between, ?_, .step turn before, after⟩
          rw [← Nat.add_assoc, total]
  · rintro ⟨first, second, between, rfl, before, after⟩
    induction before with
    | here => exact after
    | step turn _ ih =>
        have rest := ih after
        rw [List.append_assoc] at rest
        rw [← Nat.add_assoc]
        exact .step turn rest

/-- A place from which pieces lead anywhere is a directory. -/
theorem Leads.directory (leads : tree.Leads followed place (piece :: pieces) reached) :
    tree.node? place = some .directory := by
  cases leads with
  | step turn _ => exact turn.directory

/-! ## What a path leads to -/

/-- What is at the place is no link, and everything above it is a directory. -/
structure Stands (tree : FileTree) (place : Place) : Prop where
  plain : exists node, tree.node? place = some node ∧ node.IsPlain
  above : forall parent, parent <:+ place.tail -> tree.node? parent = some .directory

theorem stands_of_directory (directory : tree.node? place = some .directory)
    (above : forall parent, parent <:+ place.tail -> tree.node? parent = some .directory) :
    tree.Stands place :=
  ⟨⟨_, directory, FileNode.isPlain_directory⟩, above⟩

theorem stands_root (tree : FileTree) : tree.Stands [] := by
  apply stands_of_directory tree.node?_root
  intro parent isAbove
  rw [List.suffix_nil.mp isAbove]
  exact tree.node?_root

theorem Stands.turn {next : Place} {added : List Bytes} (stands : tree.Stands place)
    (turn : tree.Turn place piece used next added) : tree.Stands next := by
  cases turn with
  | stay _ _ => exact stands
  | ascend _ =>
      apply stands_of_directory (stands.above place.tail (List.suffix_refl _))
      intro parent isAbove
      exact stands.above parent (isAbove.trans (List.tail_suffix _))
  | enter directory _ found plain =>
      refine ⟨⟨_, found, plain⟩, ?_⟩
      intro parent isAbove
      cases place with
      | nil => exact (stands_root tree).above parent isAbove
      | cons name above =>
          rcases List.suffix_cons_iff.mp isAbove with same | higher
          · rw [same]
            exact directory
          · exact stands.above parent higher
  | follow _ _ _ =>
      rw [Place.origin]
      split
      · exact stands_root tree
      · exact stands

/-- From a place that stands, pieces lead to places that stand. -/
theorem Stands.leads (stands : tree.Stands place)
    (leads : tree.Leads followed place pieces reached) : tree.Stands reached := by
  induction leads with
  | here => exact stands
  | step turn _ ih => exact ih (stands.turn turn)

/-! ## Paths -/

/-- A path that is looked at. -/
structure IsPath (path : Path) : Prop where
  noNull : 0 ∉ path
  nonempty : path ≠ []
  short : path.length < pathLimit

variable {directory other : Place} {path first second base : Path}

theorem resolve_eq_ok_iff :
    tree.resolve directory path = .ok reached ↔
      IsPath path ∧ exists followed, followed ≤ linkLimit ∧
        tree.Leads followed (directory.origin path) (path.splitOn Path.slash) reached := by
  rw [← walk_eq_ok_iff, resolve]
  constructor
  · intro reaches
    split_ifs at reaches with null empty long
    exact ⟨⟨by simpa using null, by simpa using empty, Nat.not_le.mp long⟩, reaches⟩
  · rintro ⟨isPath, reaches⟩
    have noNull : path.contains 0 = false := by simpa using isPath.noNull
    have nonempty : path.isEmpty = false := List.isEmpty_eq_false_iff.mpr isPath.nonempty
    rwa [if_neg (by rw [noNull]; decide), if_neg (by rw [nonempty]; decide),
      if_neg (Nat.not_le.mpr isPath.short)]

theorem find_eq_ok_iff {node : FileNode} :
    tree.find directory path = .ok node ↔
      exists place, tree.resolve directory path = .ok place ∧ tree.node? place = some node := by
  rw [find]
  cases tree.resolve directory path with
  | error fault => simp only [reduceCtorEq, false_and, exists_false]
  | ok place =>
      simp only [Except.ok.injEq, exists_eq_left']
      cases tree.node? place with
      | none => simp only [reduceCtorEq]
      | some other => simp only [Except.ok.injEq, Option.some.injEq]

theorem Stands.resolve (stands : tree.Stands directory)
    (reaches : tree.resolve directory path = .ok reached) : tree.Stands reached := by
  rcases resolve_eq_ok_iff.mp reaches with ⟨_, followed, _, leads⟩
  rw [Place.origin] at leads
  split at leads
  · exact (stands_root tree).leads leads
  · exact stands.leads leads

/-! ## Spellings -/

theorem Turn.of_not_isPart {next : Place} {added : List Bytes}
    (skipped : Path.isPart piece = false) (turn : tree.Turn place piece used next added) :
    used = 0 ∧ next = place ∧ added = [] := by
  cases turn with
  | stay _ _ => exact ⟨rfl, rfl, rfl⟩
  | ascend _ => cases skipped
  | enter _ name _ _ | follow _ name _ =>
      rw [name.isPart] at skipped
      cases skipped

/-- Pieces that are no parts of a path can be left out. -/
theorem Leads.filter_isPart (front back : List Bytes)
    (leads : tree.Leads followed place (front ++ back) reached) :
    tree.Leads followed place (front ++ back.filter Path.isPart) reached := by
  generalize whole : front ++ back = pieces at leads
  induction leads generalizing front back with
  | here =>
      rcases List.append_eq_nil_iff.mp whole with ⟨rfl, rfl⟩
      exact .here
  | @step used followed place next reached piece added pieces turn later ih =>
      rcases List.append_eq_cons_iff.mp whole with ⟨rfl, rfl⟩ | ⟨rest, rfl, parts⟩
      · cases counts : Path.isPart piece with
        | false =>
            rcases turn.of_not_isPart counts with ⟨rfl, rfl, rfl⟩
            have rest := ih [] pieces rfl
            rwa [List.filter_cons_of_neg (by rw [counts]; decide)]
        | true =>
            rw [List.filter_cons_of_pos counts]
            exact .step turn (ih added pieces rfl)
      · have longer : (added ++ rest) ++ back = added ++ pieces := by
          rw [List.append_assoc, parts]
        have kept := ih (added ++ rest) back longer
        rw [List.append_assoc] at kept
        exact .step turn kept

/-- Components tell the parts of a path. -/
theorem map_spelled_inner (path : Path) :
    (Path.inner path).map Component.spelled =
      (path.splitOn Path.slash).filter Path.isPart := by
  rw [Path.inner, List.map_filterMap, ← List.filterMap_eq_filter]
  apply List.filterMap_congr
  intro piece _
  rw [Path.component?_eq, Option.guard]
  split
  · split
    · next parent => exact congrArg some parent.symm
    · rfl
  · rfl

/-- Paths with the same components lead to the same place, if they lead anywhere. -/
theorem reached_eq_of_inner_eq (absolute : Path.isAbsolute first = Path.isAbsolute second)
    (inner : Path.inner first = Path.inner second)
    (reaches : tree.resolve directory first = .ok reached)
    (reaches' : tree.resolve directory second = .ok other) : reached = other := by
  rcases resolve_eq_ok_iff.mp reaches with ⟨_, followed, _, leads⟩
  rcases resolve_eq_ok_iff.mp reaches' with ⟨_, count, _, leads'⟩
  have origin : directory.origin first = directory.origin second := by
    rw [Place.origin, absolute, ← Place.origin]
  have parts := leads.filter_isPart [] (first.splitOn Path.slash)
  have parts' := leads'.filter_isPart [] (second.splitOn Path.slash)
  rw [List.nil_append, ← map_spelled_inner] at parts parts'
  rw [inner, origin] at parts
  exact parts.unique parts'

/-! ## Paths in a directory -/

/-- A slash at the end asks for a directory, and for nothing else. -/
theorem leads_concat_nil_iff :
    tree.Leads followed place (pieces ++ [[]]) reached ↔
      tree.Leads followed place pieces reached ∧ tree.node? reached = some .directory := by
  rw [leads_append_iff]
  constructor
  · rintro ⟨first, second, between, rfl, before, after⟩
    have directory := after.directory
    cases after with
    | step turn later =>
        rcases turn.of_not_isPart rfl with ⟨rfl, rfl, rfl⟩
        cases later with
        | here => exact ⟨by rwa [Nat.zero_add], directory⟩
  · rintro ⟨leads, directory⟩
    exact ⟨followed, 0, reached, Nat.zero_add _, leads, .step (.stay directory rfl) .here⟩

/-- Behind the path of a directory, a path leads to where it leads from this directory. -/
theorem leads_append_path_iff (ends : Path.endsInSlash base = true) (path : Path) :
    tree.Leads followed place ((base ++ path).splitOn Path.slash) reached ↔
      exists first second between, second + first = followed ∧
        tree.Leads first place (base.splitOn Path.slash) between ∧
        tree.Leads second between (path.splitOn Path.slash) reached := by
  rcases List.getLast?_eq_some_iff.mp (beq_iff_eq.mp ends) with ⟨front, rfl⟩
  have bare : (front ++ [Path.slash]).splitOn Path.slash = front.splitOn Path.slash ++ [[]] :=
    Path.splitOn_append_slash front []
  rw [List.append_assoc, List.singleton_append, Path.splitOn_append_slash, bare, leads_append_iff]
  constructor
  · rintro ⟨first, second, between, total, before, after⟩
    have directory : tree.node? between = some .directory := by
      rcases List.exists_cons_of_ne_nil (List.splitOnP_ne_nil (· == Path.slash) path) with
        ⟨piece, pieces, cut⟩
      rw [List.splitOn_eq_splitOnP, cut] at after
      exact after.directory
    exact ⟨first, second, between, total, leads_concat_nil_iff.mpr ⟨before, directory⟩, after⟩
  · rintro ⟨first, second, between, total, before, after⟩
    exact ⟨first, second, between, total, (leads_concat_nil_iff.mp before).1, after⟩

theorem directory_of_endsInSlash (ends : Path.endsInSlash path = true)
    (leads : tree.Leads followed place (path.splitOn Path.slash) reached) :
    tree.node? reached = some .directory := by
  rcases List.getLast?_eq_some_iff.mp (beq_iff_eq.mp ends) with ⟨front, rfl⟩
  rw [Path.splitOn_append_slash] at leads
  exact (leads_concat_nil_iff.mp leads).2

theorem origin_append (nonempty : base ≠ []) (directory : Place) (path : Path) :
    directory.origin (base ++ path) = directory.origin base := by
  rw [Place.origin, Path.isAbsolute, List.head?_append_of_ne_nil _ nonempty]
  rfl

theorem origin_of_relative (relative : Path.isAbsolute path = false) (directory : Place) :
    directory.origin path = directory := by
  rw [Place.origin, relative, if_neg Bool.false_ne_true]

theorem IsPath.of_sublist (isPath : IsPath path) (sublist : base.Sublist path)
    (nonempty : base ≠ []) : IsPath base where
  noNull null := isPath.noNull (sublist.subset null)
  nonempty := nonempty
  short := Nat.lt_of_le_of_lt sublist.length_le isPath.short

/-- A path with the path of a directory in front leads from elsewhere to where it leads from this
directory. -/
theorem exists_resolve_of_append (ends : Path.endsInSlash base = true) (nonempty : path ≠ [])
    (relative : Path.isAbsolute path = false)
    (reaches : tree.resolve directory (base ++ path) = .ok reached) :
    exists place, tree.resolve directory base = .ok place ∧
      tree.resolve place path = .ok reached := by
  have someBase : base ≠ [] := by
    rintro rfl
    cases ends
  rcases resolve_eq_ok_iff.mp reaches with ⟨isPath, followed, few, leads⟩
  rw [leads_append_path_iff ends path, origin_append someBase] at leads
  rcases leads with ⟨first, second, place, rfl, before, after⟩
  have isBase := isPath.of_sublist (List.sublist_append_left base path) someBase
  have isRest := isPath.of_sublist (List.sublist_append_right base path) nonempty
  rw [← origin_of_relative relative place] at after
  exact ⟨place,
    resolve_eq_ok_iff.mpr ⟨isBase, first, Nat.le_trans (Nat.le_add_left _ _) few, before⟩,
    resolve_eq_ok_iff.mpr ⟨isRest, second, Nat.le_trans (Nat.le_add_right _ _) few, after⟩⟩

/-- What lies in a directory is reached by its name behind the path of the directory. -/
theorem resolve_append_name {node : FileNode} (ends : Path.endsInSlash base = true)
    (reaches : tree.resolve directory base = .ok place) (name : IsName piece)
    (noSlash : Path.slash ∉ piece) (found : tree.node? (piece :: place) = some node)
    (plain : node.IsPlain) (isPath : IsPath (base ++ piece)) :
    tree.resolve directory (base ++ piece) = .ok (piece :: place) := by
  rcases resolve_eq_ok_iff.mp reaches with ⟨isBase, followed, few, leads⟩
  have last := directory_of_endsInSlash ends leads
  have one : piece.splitOn Path.slash = [piece] := by
    apply List.splitOnP_eq_singleton
    intro byte among
    exact beq_eq_false_iff_ne.mpr fun same => noSlash (same ▸ among)
  have after : tree.Leads 0 place (piece.splitOn Path.slash) (piece :: place) := by
    rw [one]
    exact .step (.enter last name found plain) .here
  refine resolve_eq_ok_iff.mpr ⟨isPath, followed, few, ?_⟩
  rw [origin_append isBase.nonempty]
  exact (leads_append_path_iff ends piece).mpr ⟨followed, 0, place, Nat.zero_add _, leads, after⟩

end FileTree
end MiniShell
