import MiniShell.Proofs.PathWalk

namespace MiniShell

/-!
# Building a tree

A node is placed where its path leads, and the directories on the way are made.  As long as
nothing but directories is in the way, this changes nothing else: the directories that were
missing are there now, the node is where the path says, and all other places are as they
were.  So the node is found again by its path.

The places on the way are made one after the other.  Two stretches of the way meet in a place
that belongs to both, which is why a stretch is given by both of its ends.
-/

namespace FileTree

variable {tree middle grown built : FileTree} {place next target origin : Place} {piece : Bytes}
  {pieces names : List Bytes} {node : FileNode}

/-! ## Stretches of a way -/

/-- The place lies on the way from the first place down to the second. -/
structure Between (place target lies : Place) : Prop where
  below : place <:+ lies
  above : lies <:+ target

/-- There is nothing on the way but directories. -/
def IsOpen (tree : FileTree) (place target : Place) : Prop :=
  forall lies, Between place target lies ->
    tree.node? lies = none ∨ tree.node? lies = some .directory

/-- All places on the way are directories now, and no others have changed. -/
structure Grown (tree grown : FileTree) (place target : Place) : Prop where
  way : forall lies, Between place target lies -> grown.node? lies = some .directory
  other : forall lies, ¬ Between place target lies -> grown.node? lies = tree.node? lies

theorem Between.eq_of_self {lies : Place} (between : Between place place lies) : lies = place :=
  between.above.eq_of_length_le between.below.length_le

theorem Between.eq_or_tail {lies : Place} (between : Between place target lies) :
    lies = target ∨ Between place target.tail lies := by
  cases target with
  | nil => exact .inl (List.eq_nil_of_suffix_nil between.above)
  | cons piece above =>
      rcases List.suffix_cons_iff.mp between.above with same | higher
      · exact .inl same
      · exact .inr ⟨between.below, higher⟩

theorem Grown.refl (directory : tree.node? place = some .directory) :
    tree.Grown tree place place where
  way lies between := by rw [between.eq_of_self, directory]
  other _ _ := rfl

theorem Grown.trans (first : tree.Grown middle place next) (second : middle.Grown grown next target)
    (below : place <:+ next) (above : next <:+ target) : tree.Grown grown place target where
  way lies between := by
    by_cases later : Between next target lies
    · exact second.way lies later
    · rw [second.other lies later]
      rcases List.suffix_or_suffix_of_suffix between.above above with earlier | beyond
      · exact first.way lies ⟨between.below, earlier⟩
      · exact absurd ⟨beyond, between.above⟩ later
  other lies outside := by
    rw [second.other, first.other]
    · exact fun earlier => outside ⟨earlier.below, earlier.above.trans above⟩
    · exact fun later => outside ⟨below.trans later.below, later.above⟩

/-! ## Entering directories -/

theorem enter_of_directory (directory : tree.node? place = some .directory) (name : IsName piece)
    (found : tree.node? (piece :: place) = some .directory) :
    enter (tree, place) piece = (tree, piece :: place) := by
  have turn := Turn.enter directory name found FileNode.isPlain_directory
  have reaches : tree.walk linkLimit place [piece] = .ok (piece :: place) :=
    walk_eq_ok_iff.mpr ⟨0, Nat.zero_le _, .step turn .here⟩
  rw [enter, reaches]

theorem enter_of_none (name : IsName piece) (nothing : tree.node? (piece :: place) = none) :
    enter (tree, place) piece = (tree.insert (piece :: place) .directory, piece :: place) := by
  rw [enter]
  cases reaches : tree.walk linkLimit place [piece] with
  | error fault => rfl
  | ok reached =>
      rcases walk_eq_ok_iff.mp reaches with ⟨_, _, leads⟩
      cases leads with
      | step turn _ =>
          cases turn with
          | stay _ skipped =>
              rw [name.isPart] at skipped
              cases skipped
          | ascend _ => exact absurd rfl name.notParent
          | enter _ _ found _ | follow _ _ found =>
              rw [nothing] at found
              cases found

theorem exists_enter_grown (directory : tree.node? place = some .directory) (name : IsName piece)
    (isOpen : tree.IsOpen place (piece :: place)) :
    exists grown, enter (tree, place) piece = (grown, piece :: place) ∧
      tree.Grown grown place (piece :: place) := by
  have last : Between place (piece :: place) (piece :: place) :=
    ⟨List.suffix_cons _ _, List.suffix_refl _⟩
  rcases isOpen _ last with nothing | found
  · refine ⟨_, enter_of_none name nothing, ?_, ?_⟩
    · intro lies between
      rcases between.eq_or_tail with rfl | higher
      · exact tree.node?_insert_self _ _ _
      · rw [higher.eq_of_self, tree.node?_insert_of_ne (List.cons_ne_self _ _).symm, directory]
    · intro lies outside
      apply tree.node?_insert_of_ne
      rintro rfl
      exact outside last
  · refine ⟨tree, enter_of_directory directory name found, ?_, fun _ _ => rfl⟩
    intro lies between
    rcases between.eq_or_tail with rfl | higher
    · exact found
    · rw [higher.eq_of_self, directory]

/-- The directories of the names are there after all of them have been entered. -/
theorem exists_foldl_enter_grown (directory : tree.node? place = some .directory)
    (areNames : forall name, name ∈ names -> IsName name)
    (isOpen : tree.IsOpen place (names.reverse ++ place)) :
    exists grown, names.foldl enter (tree, place) = (grown, names.reverse ++ place) ∧
      tree.Grown grown place (names.reverse ++ place) := by
  induction names generalizing tree place with
  | nil => exact ⟨tree, rfl, .refl directory⟩
  | cons name names ih =>
      have whole : (name :: names).reverse ++ place = names.reverse ++ name :: place := by
        rw [List.reverse_cons, List.append_assoc, List.singleton_append]
      rw [whole] at isOpen ⊢
      have below : place <:+ name :: place := List.suffix_cons name place
      have above : name :: place <:+ names.reverse ++ name :: place := List.suffix_append _ _
      have first : tree.IsOpen place (name :: place) := by
        intro lies between
        exact isOpen lies ⟨between.below, between.above.trans above⟩
      rcases exists_enter_grown directory (areNames name List.mem_cons_self) first with
        ⟨middle, entered, grows⟩
      have last : middle.node? (name :: place) = some .directory :=
        grows.way _ ⟨below, List.suffix_refl _⟩
      have later : middle.IsOpen (name :: place) (names.reverse ++ name :: place) := by
        intro lies between
        by_cases before : Between place (name :: place) lies
        · exact .inr (grows.way lies before)
        · rw [grows.other lies before]
          exact isOpen lies ⟨below.trans between.below, between.above⟩
      rcases ih last (fun other member => areNames other (List.mem_cons_of_mem _ member)) later with
        ⟨grown, rest, grows'⟩
      refine ⟨grown, ?_, grows.trans grows' below above⟩
      rw [List.foldl_cons, entered, rest]

/-! ## Placing a node -/

/-- The place that the parts of a path name below a directory. -/
def named (start : Place) (path : Path) : Place :=
  ((path.splitOn Path.slash).filter Path.isPart).reverse ++ start.origin path

/-- The node is at the end of the way, all other places on the way are directories, and no others
have changed. -/
structure Placed (tree built : FileTree) (origin target : Place) (node : FileNode) : Prop where
  held : built.node? target = some node
  way : forall lies, Between origin target.tail lies -> built.node? lies = some .directory
  other : forall lies, ¬ Between origin target lies -> built.node? lies = tree.node? lies

theorem Between.cons {lies : Place} (between : Between place target lies) (piece : Bytes) :
    Between place (piece :: target) lies :=
  ⟨between.below, between.above.trans (List.suffix_cons piece target)⟩

theorem Grown.placed (grows : tree.Grown grown place (piece :: target))
    (below : place <:+ target) : tree.Placed grown place (piece :: target) .directory where
  held := grows.way _ ⟨below.trans (List.suffix_cons _ _), List.suffix_refl _⟩
  way _ between := grows.way _ (between.cons piece)
  other := grows.other

theorem Grown.placed_insert (grows : tree.Grown grown place target) (below : place <:+ target)
    (piece : Bytes) (node : FileNode) :
    tree.Placed (grown.insert (piece :: target) node) place (piece :: target) node where
  held := grown.node?_insert_self piece target node
  way lies between := by
    have different : lies ≠ piece :: target := by
      rintro rfl
      exact Nat.not_succ_le_self _ between.above.length_le
    rw [grown.node?_insert_of_ne different]
    exact grows.way lies between
  other lies outside := by
    have different : lies ≠ piece :: target := by
      rintro rfl
      exact outside ⟨below.trans (List.suffix_cons _ _), List.suffix_refl _⟩
    rw [grown.node?_insert_of_ne different]
    exact grows.other lies fun between => outside (between.cons piece)

/-- The last directory is entered as the others are. -/
theorem Grown.placed_enter (grows : tree.Grown grown place target) (below : place <:+ target)
    (name : IsName piece)
    (free : tree.node? (piece :: target) = none ∨
      tree.node? (piece :: target) = some .directory) :
    tree.Placed (enter (grown, target) piece).1 place (piece :: target) .directory := by
  have parent := grows.way target ⟨below, List.suffix_refl _⟩
  have isOpen : grown.IsOpen target (piece :: target) := by
    intro lies between
    rcases between.eq_or_tail with rfl | higher
    · rwa [grows.other _ fun above => Nat.not_succ_le_self _ above.above.length_le]
    · rw [higher.eq_of_self]
      exact .inr parent
  rcases exists_enter_grown parent name isOpen with ⟨last, entered, grows'⟩
  rw [entered]
  exact (grows.trans grows' below (List.suffix_cons _ _)).placed below

theorem filter_reversedParts (pieces : List Bytes) :
    (Path.reversedParts pieces).filter Path.isPart = (pieces.filter Path.isPart).reverse := by
  rw [Path.reversedParts, ← List.filter_reverse]
  induction pieces.reverse with
  | nil => rfl
  | cons piece later ih =>
      cases counts : Path.isPart piece with
      | true => rw [List.dropWhile_cons_of_neg (by rw [counts]; decide)]
      | false =>
          rw [List.dropWhile_cons_of_pos (by rw [counts]; decide),
            List.filter_cons_of_neg (by rw [counts]; decide)]
          exact ih

variable {start : Place} {path : Path}

/-- Placing goes down to the last part of the path, and puts the node there. -/
theorem exists_place_eq (nonempty : named start path ≠ start.origin path) (tree : FileTree)
    (node : FileNode) :
    exists names piece, named start path = piece :: (names.reverse ++ start.origin path) ∧
      (forall name, name ∈ piece :: names ->
        name ∈ path.splitOn Path.slash ∧ Path.isPart name = true) ∧
      tree.place start path node =
        let reached := names.foldl enter (tree, start.origin path)
        if node = .directory then (enter reached piece).1
        else reached.1.insert (piece :: reached.2) node := by
  have parts := filter_reversedParts (path.splitOn Path.slash)
  rw [place]
  cases cut : Path.reversedParts (path.splitOn Path.slash) with
  | nil =>
      rw [cut] at parts
      exact absurd (by rw [named, ← parts]; rfl) nonempty
  | cons piece earlier =>
      rw [cut, List.filter_cons_of_pos (Path.isPart_of_reversedParts cut)] at parts
      refine ⟨earlier.reverse.filter Path.isPart, piece, ?_, ?_, rfl⟩
      · rw [named, ← parts, List.filter_reverse, List.reverse_reverse, List.cons_append]
      · intro name member
        rw [← List.mem_filter, ← List.mem_reverse, ← parts]
        simpa only [List.mem_cons, List.filter_reverse, List.mem_reverse] using member

/-- The path starts in a directory and has parts, all of which are names, and nothing but
directories is in the way.  A directory may be there already. -/
structure Buildable (tree : FileTree) (start : Place) (path : Path) (node : FileNode) : Prop where
  directory : tree.node? (start.origin path) = some .directory
  areNames : forall piece, piece ∈ path.splitOn Path.slash -> Path.isPart piece = true ->
    IsName piece
  nonempty : named start path ≠ start.origin path
  isOpen : tree.IsOpen (start.origin path) (named start path).tail
  free : node = .directory ->
    tree.node? (named start path) = none ∨ tree.node? (named start path) = some .directory

/-- A node is placed where its path says. -/
theorem Buildable.placed (buildable : tree.Buildable start path node) :
    tree.Placed (tree.place start path node) (start.origin path) (named start path) node := by
  rcases exists_place_eq buildable.nonempty tree node with ⟨names, piece, target, among, same⟩
  have isOpen := buildable.isOpen
  have free := buildable.free
  rw [target] at isOpen free ⊢
  have isName : forall name, name ∈ piece :: names -> IsName name := by
    intro name member
    exact buildable.areNames name (among name member).1 (among name member).2
  have below := List.suffix_append names.reverse (start.origin path)
  rcases exists_foldl_enter_grown buildable.directory
    (fun name member => isName name (List.mem_cons_of_mem _ member)) isOpen with
    ⟨grown, entered, grows⟩
  rw [same, entered]
  dsimp only
  split
  · next isDirectory =>
      rw [isDirectory]
      exact grows.placed_enter below (isName piece List.mem_cons_self) (free isDirectory)
  · exact grows.placed_insert below piece node

/-! ## Finding a node again -/

/-- Along directories, pieces lead to the place that their parts name. -/
theorem leads_of_way
    (areNames : forall piece, piece ∈ pieces -> Path.isPart piece = true -> IsName piece)
    (way : forall lies, Between place ((pieces.filter Path.isPart).reverse ++ place) lies ->
      tree.node? lies = some .directory) :
    tree.Leads 0 place pieces ((pieces.filter Path.isPart).reverse ++ place) := by
  induction pieces generalizing place with
  | nil => exact .here
  | cons piece pieces ih =>
      have directory := way place ⟨List.suffix_refl _, List.suffix_append _ _⟩
      have later := fun other member => areNames other (List.mem_cons_of_mem piece member)
      cases counts : Path.isPart piece with
      | false =>
          rw [List.filter_cons_of_neg (by rw [counts]; decide)] at way ⊢
          exact .step (.stay directory counts) (ih later way)
      | true =>
          have whole : ((piece :: pieces).filter Path.isPart).reverse ++ place =
              (pieces.filter Path.isPart).reverse ++ piece :: place := by
            rw [List.filter_cons_of_pos counts, List.reverse_cons, List.append_assoc,
              List.singleton_append]
          rw [whole] at way ⊢
          have below := List.suffix_cons piece place
          have found := way (piece :: place) ⟨below, List.suffix_append _ _⟩
          have rest := ih later fun lies between =>
            way lies ⟨below.trans between.below, between.above⟩
          have name := areNames piece List.mem_cons_self counts
          exact .step (.enter directory name found FileNode.isPlain_directory) rest

/-- The path of a placed node leads to it.  Behind the name of a file no slash may follow. -/
theorem Placed.leads (isPlaced : tree.Placed built (start.origin path) (named start path) node)
    (plain : node.IsPlain)
    (areNames : forall piece, piece ∈ path.splitOn Path.slash -> Path.isPart piece = true ->
      IsName piece)
    (ends : node = .directory ∨
      exists front last, path.splitOn Path.slash = front ++ [last] ∧ Path.isPart last = true) :
    built.Leads 0 (start.origin path) (path.splitOn Path.slash) (named start path) := by
  rcases ends with rfl | ⟨front, last, cut, isPart⟩
  · apply leads_of_way areNames
    intro lies between
    rcases between.eq_or_tail with rfl | above
    · exact isPlaced.held
    · exact isPlaced.way lies above
  · -- The front leads to the directory of the node, and the node is entered from there.
    have target : named start path =
        last :: ((front.filter Path.isPart).reverse ++ start.origin path) := by
      rw [named, cut, List.filter_append, List.filter_singleton, isPart, cond_true,
        List.reverse_append, List.reverse_singleton, List.singleton_append, List.cons_append]
    have held := isPlaced.held
    have way := isPlaced.way
    rw [target] at held way ⊢
    rw [cut] at areNames ⊢
    have before := leads_of_way
      (fun piece member => areNames piece (List.mem_append_left _ member)) way
    have parent := way _ ⟨List.suffix_append _ _, List.suffix_refl _⟩
    have name := areNames last (List.mem_append_right _ (List.mem_singleton_self last)) isPart
    exact leads_append_iff.mpr ⟨0, 0, _, rfl, before, .step (.enter parent name held plain) .here⟩

/-- A node that has been placed is found by its path. -/
theorem Buildable.find_place (buildable : tree.Buildable start path node) (plain : node.IsPlain)
    (isPath : IsPath path)
    (ends : node = .directory ∨
      exists front last, path.splitOn Path.slash = front ++ [last] ∧ Path.isPart last = true) :
    (tree.place start path node).find start path = .ok node := by
  have leads := buildable.placed.leads plain buildable.areNames ends
  have reaches := resolve_eq_ok_iff.mpr ⟨isPath, 0, Nat.zero_le _, leads⟩
  exact find_eq_ok_iff.mpr ⟨_, reaches, buildable.placed.held⟩

/-! ## What stays as it was -/

/-- If the way began at a place that stands, all places on it stand. -/
theorem Placed.stands {lies : Place} (isPlaced : tree.Placed built place target node)
    (plain : lies = target -> node.IsPlain) (stands : tree.Stands place)
    (between : Between place target lies) : built.Stands lies := by
  constructor
  · rcases between.eq_or_tail with same | above
    · exact ⟨node, same ▸ isPlaced.held, plain same⟩
    · exact ⟨_, isPlaced.way lies above, FileNode.isPlain_directory⟩
  · intro parent higher
    by_cases below : place <:+ parent
    · apply isPlaced.way parent
      rcases between.eq_or_tail with rfl | above
      · exact ⟨below, higher⟩
      · exact ⟨below, higher.trans ((List.tail_suffix lies).trans above.above)⟩
    · rw [isPlaced.other parent fun between => below between.below]
      have above := (higher.trans (List.tail_suffix lies)).trans between.above
      have start := between.below.trans between.above
      rcases List.suffix_or_suffix_of_suffix start above with lower | isAbove
      · exact absurd lower below
      · rcases Between.eq_or_tail ⟨List.nil_suffix, isAbove⟩ with rfl | farAbove
        · exact absurd (List.suffix_refl _) below
        · exact stands.above parent farAbove.above

/-- Nodes have been placed below a directory, one after the other. -/
inductive BuiltFrom (tree : FileTree) (start : Place) : FileTree -> Prop
  | same : BuiltFrom tree start tree
  | place {built : FileTree} {path : Path} {node : FileNode} (before : BuiltFrom tree start built)
      (relative : Path.isAbsolute path = false) (buildable : built.Buildable start path node) :
      BuiltFrom tree start (built.place start path node)

theorem Buildable.stands (buildable : tree.Buildable start path node)
    (relative : Path.isAbsolute path = false) (stands : tree.Stands start) :
    (tree.place start path node).Stands start := by
  have isPlaced := buildable.placed
  have nonempty := buildable.nonempty
  have below := List.suffix_append ((path.splitOn Path.slash).filter Path.isPart).reverse start
  rw [named, origin_of_relative relative] at isPlaced nonempty
  exact isPlaced.stands (fun same => absurd same.symm nonempty) stands
    ⟨List.suffix_refl start, below⟩

/-- Whatever is placed below a directory, the directory stands. -/
theorem BuiltFrom.stands (builtFrom : tree.BuiltFrom start built) (stands : tree.Stands start) :
    built.Stands start := by
  induction builtFrom with
  | same => exact stands
  | place _ relative buildable ih => exact buildable.stands relative ih

end FileTree
end MiniShell
