import MiniShell.Proofs.CompletedLine
import MiniShell.Proofs.PathWalk

namespace MiniShell

/-!
# What a shell sees of a tree

The answers about files need not fit together, but those that come from a tree do.  At each
path there is nothing, or a directory, or a file.  So over a tree an argument fails because
there is nothing, or because there is a directory, and for no other reason.

The files that a session prints are then those of the directory that the tracked path leads to.
A listing has the nodes of this directory, each under its own name, and a file among them
is printed by its name.
-/

/-! ## Views that fit together -/

namespace FileView

/-- The answers where there is nothing. -/
structure HasNothing (files : FileView) (path : Path) : Prop where
  absent : files.isPresent path = false
  unreadable : files.isReadable path = false
  notDirectory : files.isDirectory path = false
  read : exists fault, files.read path = .error fault

/-- The answers about a directory, which can be opened, but not read. -/
structure HasDirectory (files : FileView) (path : Path) : Prop where
  present : files.isPresent path = true
  readable : files.isReadable path = true
  isDirectory : files.isDirectory path = true
  read : files.read path = .error (.ofCode 21)

/-- At each path there is one thing, or nothing. -/
def IsCoherent (files : FileView) : Prop :=
  forall path, files.HasNothing path ∨ files.HasDirectory path ∨
    exists contents, files.HasFile path contents

end FileView

namespace Concatenation

variable {rule : PathRule} {files : FileView} {directory argument : Text} {path : Path}

theorem Outcome.of_hasDirectory (has : files.HasDirectory path)
    (located : location? rule files directory argument = some path) :
    Outcome.of rule files directory argument = ⟨argument, .error "Is a directory".toList⟩ := by
  rw [Outcome.of, located]
  simp only [has.readable, has.isDirectory, Bool.true_eq_false, if_false, if_true]

theorem isPresent_of_location? (located : location? rule files directory argument = some path) :
    files.isPresent path = true := by
  rw [location?] at located
  split at located
  · cases located
  · exact List.find?_some located

/-- If the answers fit together, an argument only fails at the place of nothing or of a
directory. -/
theorem result_of_isCoherent (coherent : files.IsCoherent) (rule : PathRule)
    (directory argument : Text) :
    let result := (Outcome.of rule files directory argument).result
    (exists contents, result = .ok contents) ∨
      result = .error "No such file or directory".toList ∨
      result = .error "Is a directory".toList := by
  dsimp only
  cases located : location? rule files directory argument with
  | none =>
      rw [Outcome.of_missing located]
      exact .inr (.inl rfl)
  | some path =>
      rcases coherent path with nothing | isDirectory | ⟨contents, isFile⟩
      · have present := isPresent_of_location? located
        rw [nothing.absent] at present
        cases present
      · rw [Outcome.of_hasDirectory isDirectory located]
        exact .inr (.inr rfl)
      · rw [Outcome.of_hasFile isFile located]
        exact .inl ⟨contents, rfl⟩

end Concatenation

namespace FileTree

variable {tree : FileTree} {directory place : Place} {path base : Path} {node : FileNode}
  {contents : Bytes}

/-! ## The answers of a tree -/

/-- From a place that stands, a path leads to no link. -/
theorem Stands.find_isPlain (stands : tree.Stands directory)
    (found : tree.find directory path = .ok node) : node.IsPlain := by
  rcases find_eq_ok_iff.mp found with ⟨place, reaches, held⟩
  rcases (stands.resolve reaches).plain with ⟨other, held', plain⟩
  cases held.symm.trans held'
  exact plain

theorem hasFile_view_iff :
    (tree.view directory).HasFile path contents ↔
      tree.find directory path = .ok (.file contents) := by
  constructor
  · intro has
    have read := has.read
    cases found : tree.find directory path with
    | error fault =>
        simp only [view, found] at read
        cases read
    | ok node =>
        cases node with
        | file held =>
            simp only [view, found] at read
            cases read
            rfl
        | directory | link _ =>
            simp only [view, found] at read
            cases read
  · intro found
    constructor <;> simp only [view, found] <;> rfl

/-- The answers of a tree fit together, seen from a place that stands. -/
theorem Stands.isCoherent_view (stands : tree.Stands directory) :
    (tree.view directory).IsCoherent := by
  intro path
  cases found : tree.find directory path with
  | error fault =>
      left
      constructor <;> simp only [view, found]
      · rfl
      · rfl
      · exact ⟨fault, rfl⟩
  | ok node =>
      right
      cases node with
      | link target => exact absurd rfl (stands.find_isPlain found target)
      | directory =>
          left
          constructor <;> simp only [view, found] <;> rfl
      | file contents => exact .inr ⟨contents, hasFile_view_iff.mpr found⟩

/-- A file that is found behind the path of a directory is the one that is found from there. -/
theorem exists_hasFile_of_append (ends : Path.endsInSlash base = true) (nonempty : path ≠ [])
    (relative : Path.isAbsolute path = false)
    (has : (tree.view directory).HasFile (base ++ path) contents) :
    exists place, tree.resolve directory base = .ok place ∧
      (tree.view place).HasFile path contents := by
  rcases find_eq_ok_iff.mp (hasFile_view_iff.mp has) with ⟨reached, reaches, held⟩
  rcases exists_resolve_of_append ends nonempty relative reaches with ⟨place, atBase, later⟩
  exact ⟨place, atBase, hasFile_view_iff.mpr (find_eq_ok_iff.mpr ⟨reached, later, held⟩)⟩

theorem hasFile_append_name {name : Bytes} (ends : Path.endsInSlash base = true)
    (reaches : tree.resolve directory base = .ok place) (isName : IsName name)
    (noSlash : Path.slash ∉ name) (held : tree.node? (name :: place) = some (.file contents))
    (isPath : IsPath (base ++ name)) :
    (tree.view directory).HasFile (base ++ name) contents := by
  have plain := FileNode.isPlain_file contents
  have reached := resolve_append_name ends reaches isName noSlash held plain isPath
  exact hasFile_view_iff.mpr (find_eq_ok_iff.mpr ⟨_, reached, held⟩)

/-! ## Listings -/

/-- The entries are the nodes that lie directly in the place, and each has its own name. -/
structure Lists (tree : FileTree) (place : Place) (entries : List Completion.Entry) : Prop where
  directory : tree.node? place = some .directory
  mem_iff : forall entry, entry ∈ entries ↔
    exists node, tree.node? (entry.name :: place) = some node ∧
      entry.isDirectory = (node == .directory)
  distinct : (entries.map Completion.Entry.name).Nodup

theorem entryIn?_eq_some_iff {lies : Place} {entry : Completion.Entry} :
    entryIn? place (lies, node) = some entry ↔
      lies = entry.name :: place ∧ entry.isDirectory = (node == .directory) := by
  rcases entry with ⟨name, isDirectory⟩
  cases lies with
  | nil => simp only [entryIn?, reduceCtorEq, false_and]
  | cons last parent =>
      rw [entryIn?]
      split
      · next same =>
          subst same
          simp only [Option.some.injEq, Completion.Entry.mk.injEq, List.cons.injEq, and_true]
          exact and_congr_right fun _ => eq_comm
      · next elsewhere =>
          simp only [reduceCtorEq, List.cons.injEq, elsewhere, and_false, false_and]

/-- A name and the place of its directory give back the place of a node. -/
theorem sublist_places (place : Place) (nodes : List (Place × FileNode)) :
    ((nodes.filterMap (entryIn? place)).map fun entry => entry.name :: place).Sublist
      (nodes.map Prod.fst) := by
  induction nodes with
  | nil => exact List.Sublist.slnil
  | cons first later ih =>
      cases lies : entryIn? place first with
      | none =>
          rw [List.filterMap_cons_none lies]
          exact ih.cons first.1
      | some entry =>
          have same : first.1 = entry.name :: place := (entryIn?_eq_some_iff.mp lies).1
          rw [List.filterMap_cons_some lies, List.map_cons, List.map_cons, same]
          exact ih.cons_cons _

theorem lists_filterMap (directory : tree.node? place = some .directory) :
    tree.Lists place (tree.nodes.filterMap (entryIn? place)) where
  directory := directory
  mem_iff entry := by
    simp only [List.mem_filterMap, Prod.exists, entryIn?_eq_some_iff]
    constructor
    · rintro ⟨_, node, member, rfl, kind⟩
      exact ⟨node, tree.mem_nodes_iff.mp member, kind⟩
    · rintro ⟨node, held, kind⟩
      exact ⟨_, node, tree.mem_nodes_iff.mpr held, rfl, kind⟩
  distinct := by
    apply List.Nodup.of_map fun name => name :: place
    rw [List.map_map]
    exact tree.distinct.sublist (sublist_places place tree.nodes)

/-- What is listed is the directory that the path leads to. -/
theorem list_eq_some_iff {entries : List Completion.Entry} :
    tree.list directory path = some entries ↔
      exists place, tree.resolve directory path = .ok place ∧
        tree.node? place = some .directory ∧
        tree.nodes.filterMap (entryIn? place) = entries := by
  rw [list]
  cases tree.resolve directory path with
  | error fault => simp only [reduceCtorEq, false_and, exists_false]
  | ok place =>
      simp only [Except.ok.injEq, exists_eq_left']
      split
      · next isDirectory =>
          simp only [Option.some.injEq, isDirectory, true_and]
      · next other =>
          simp only [reduceCtorEq, other, false_and]

theorem exists_lists_of_list {entries : List Completion.Entry}
    (listed : tree.list directory path = some entries) :
    exists place, tree.resolve directory path = .ok place ∧ tree.Lists place entries := by
  rcases list_eq_some_iff.mp listed with ⟨place, reaches, isDirectory, rfl⟩
  exact ⟨place, reaches, lists_filterMap isDirectory⟩

/-- In a listing of a tree a name belongs to one entry. -/
theorem namesOnce_list (tree : FileTree) (directory : Place) (path : Path) :
    Completion.NamesOnce (tree.list directory path) := by
  intro first listed second listed' same
  cases found : tree.list directory path with
  | none =>
      rw [found] at listed
      cases listed
  | some entries =>
      rw [found] at listed listed'
      rcases exists_lists_of_list found with ⟨place, _, lists⟩
      exact List.inj_on_of_nodup_map lists.distinct listed listed' same

end FileTree

/-! ## Sessions over a tree -/

namespace Session

open FileTree

/-- At any point of a session over a tree, a line that concatenates says of its arguments that
there is nothing, or that there is a directory, and it says nothing else. -/
theorem leaves_over_tree (rule : PathRule) (directory : Path) (steps : List Step)
    {tree : FileTree} {current : Place} (stands : tree.Stands current) {line : Text}
    {arguments : List Text} (words : Words.split line = some ("cat".toList :: arguments))
    (given : arguments ≠ []) (input : Source) :
    exists outcomes,
      (((start rule directory).after steps).execute (tree.view current) line
        { input := input }).Leaves outcomes ∧
      outcomes.map Concatenation.Outcome.argument = arguments ∧
      forall outcome, outcome ∈ outcomes ->
        (exists contents, outcome.result = .ok contents) ∨
          outcome.result = .error "No such file or directory".toList ∨
          outcome.result = .error "Is a directory".toList := by
  have tracked := (holds_after rule directory steps).directory
  refine ⟨_, leaves_execute words given tracked (tree.view current) input, ?_, ?_⟩
  · rw [List.map_map]
    exact List.map_id arguments
  · intro outcome member
    rcases List.mem_map.mp member with ⟨argument, _, rfl⟩
    exact Concatenation.result_of_isCoherent stands.isCoherent_view _ _ argument

/-- At any point of a session over a tree, the entries of the tracked directory are the nodes of
one directory, and each file among them is printed by its name. -/
theorem prints_listed_file (rule : PathRule) (directory : Path) (steps : List Step)
    {tree : FileTree} {current : Place} {entries : List Completion.Entry}
    (listed : tree.list current (Utf8.encode (Variables.directoryMarker directory)) =
      some entries) :
    exists place, tree.Lists place entries ∧
      forall name contents, '/' ∉ name -> IsName (Utf8.encode name) ->
        IsPath (Utf8.encode (Variables.directoryMarker directory) ++ Utf8.encode name) ->
        tree.node? (Utf8.encode name :: place) = some (.file contents) ->
        forall line input, Words.split line = some ["cat".toList, name] ->
          let round := ((start rule directory).after steps).execute (tree.view current) line
            { input := input }
          round.result = .ok (.next 0) ∧
            round.streams.output.stored = contents ++ [Source.newline] ∧
            round.streams.error.stored = [] := by
  rcases exists_lists_of_list listed with ⟨place, reaches, lists⟩
  refine ⟨place, lists, ?_⟩
  intro name contents noSlash isName isPath held line input words
  have given : name ≠ [] := by
    rintro rfl
    cases isName.isPart
  have ends := Path.endsInSlash_encode (Variables.getLast?_directoryMarker directory)
  have has := hasFile_append_name ends reaches isName (Path.slash_not_mem_encode noSlash) held
    isPath
  exact execute_of_hasFile rule directory steps words given noSlash has input

/-- The tracked directory is a link to the directory of the file. -/
example :
    let file := FileNode.file (Utf8.encode ['x'])
    let link := FileNode.link (Utf8.encode "d".toList)
    let tree := (({} : FileTree).place [] (Utf8.encode "/d/a".toList) file).place []
      (Utf8.encode "/b".toList) link
    let session := start .append (Utf8.encode "/b".toList)
    tree.list [] (Utf8.encode "/b/".toList) = some [⟨Utf8.encode "a".toList, false⟩] ∧
      (session.execute (tree.view []) "cat a".toList {}).streams.output.stored =
        Utf8.encode "x\n".toList := by
  cbv

end Session
end MiniShell
