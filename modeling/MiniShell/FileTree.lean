import MiniShell.Bindings
import MiniShell.Completion
import MiniShell.FileView

namespace MiniShell

/-!
# Trees of files

A tree holds files, directories and symbolic links in memory, and paths are
looked up in it as an operating system does: part by part, with links followed
where they are met.  A path that ends in a slash asks for a directory, a parent
is always that of the directory that was reached, and the number of links on the
way is bounded.
-/

/-- Where something lies in a tree: the parts of its path, the last one first.
The root has no parts, and the parent of a place is its tail. -/
abbrev Place := List Bytes

inductive FileNode where
  | file (contents : Bytes)
  | directory
  /-- A symbolic link with its target, which need not exist. -/
  | link (target : Path)
  deriving DecidableEq, Repr

/-- A tree of files.  The root is always a directory, and there is one node at a place. -/
structure FileTree where
  nodes : List (Place × FileNode) := []
  distinct : (nodes.map Prod.fst).Nodup := by decide
  deriving DecidableEq, Repr

/-- The place at which a path starts: the root, or the directory that it is seen from. -/
def Place.origin (directory : Place) (path : Path) : Place :=
  if Path.isAbsolute path then [] else directory

namespace FileTree

def linkLimit : Nat := 40

def partLimit : Nat := 255

/-- The number of bytes that a path must not reach. -/
def pathLimit : Nat := 4096

def node? (tree : FileTree) : Place -> Option FileNode
  | [] => some .directory
  | place => tree.nodes.lookup place

/-- Put a node at a place, over what was there. -/
def insert (tree : FileTree) (place : Place) (node : FileNode) : FileTree where
  nodes := Bindings.set tree.nodes place node
  distinct := Bindings.nodup_set tree.distinct place node

@[simp] theorem node?_root (tree : FileTree) : tree.node? [] = some .directory := rfl

@[simp] theorem node?_insert_self (tree : FileTree) (name : Bytes) (parent : Place)
    (node : FileNode) : (tree.insert (name :: parent) node).node? (name :: parent) = some node :=
  Bindings.lookup_set_self tree.nodes (name :: parent) node

theorem node?_insert_of_ne (tree : FileTree) {place other : Place} (different : other ≠ place)
    (node : FileNode) : (tree.insert place node).node? other = tree.node? other := by
  cases other with
  | nil => rfl
  | cons name parent => exact Bindings.lookup_set_of_ne tree.nodes node different

/-- Below the root, the nodes of a tree are what is found. -/
theorem mem_nodes_iff (tree : FileTree) {name : Bytes} {parent : Place} {node : FileNode} :
    (name :: parent, node) ∈ tree.nodes ↔ tree.node? (name :: parent) = some node :=
  Bindings.mem_iff_lookup tree.distinct

/-- Go on from a place along the pieces of a path, and follow links also at the
end. -/
def walk (tree : FileTree) (links : Nat) (place : Place) : List Bytes ->
    Except Fault Place
  | [] => .ok place
  | piece :: pieces =>
      if tree.node? place != some .directory then .error (.ofCode 20)
      else if piece.isEmpty || piece == Path.dot then tree.walk links place pieces
      else if piece = Path.dotDot then tree.walk links place.tail pieces
      else if partLimit < piece.length then .error (.ofCode 36)
      else
        match tree.node? (piece :: place) with
        | none => .error (.ofCode 2)
        | some (.link target) =>
            match links with
            | 0 => .error (.ofCode 40)
            | links + 1 =>
                tree.walk links (place.origin target)
                  (target.splitOn Path.slash ++ pieces)
        | some _ => tree.walk links (piece :: place) pieces
termination_by pieces => (links, pieces.length)

/-- The place to which a path leads from a directory. -/
def resolve (tree : FileTree) (directory : Place) (path : Path) :
    Except Fault Place :=
  if path.contains 0 then
    .error (.custom "file name contained an unexpected NUL byte".toList)
  else if path.isEmpty then .error (.ofCode 2)
  else if pathLimit ≤ path.length then .error (.ofCode 36)
  else
    tree.walk linkLimit (directory.origin path) (path.splitOn Path.slash)

/-- What a path leads to. -/
def find (tree : FileTree) (directory : Place) (path : Path) : Except Fault FileNode :=
  match tree.resolve directory path with
  | .error fault => .error fault
  | .ok place =>
      match tree.node? place with
      | some node => .ok node
      | none => .error (.ofCode 2)

/-- The tree as commands see it from a directory.  Everything in it may be read,
and directories can be opened, but have no contents. -/
def view (tree : FileTree) (directory : Place) : FileView where
  isPresent path := (tree.find directory path).isOk
  isReadable path := (tree.find directory path).isOk
  isDirectory path :=
    match tree.find directory path with
    | .ok .directory => true
    | _ => false
  read path :=
    match tree.find directory path with
    | .ok (.file contents) => .ok contents
    | .ok _ => .error (.ofCode 21)
    | .error fault => .error fault

/-- The entry that lies directly in a place, if the node does. -/
def entryIn? (place : Place) : Place × FileNode -> Option Completion.Entry
  | (name :: parent, node) =>
      if parent = place then some ⟨name, node == .directory⟩ else none
  | ([], _) => none

/-- The entries of the directory at a path, or `none` if there is none. -/
def list (tree : FileTree) (directory : Place) (path : Path) :
    Option (List Completion.Entry) :=
  match tree.resolve directory path with
  | .error _ => none
  | .ok place =>
      if tree.node? place = some .directory then
        some (tree.nodes.filterMap (entryIn? place))
      else none

/-- Enter a directory, and make it if it does not exist. -/
def enter (state : FileTree × Place) (piece : Bytes) : FileTree × Place :=
  match state.1.walk linkLimit state.2 [piece] with
  | .ok place => (state.1, place)
  | .error _ => (state.1.insert (piece :: state.2) .directory, piece :: state.2)

/-- Put a node where a path leads, and make the directories on the way. -/
def place (tree : FileTree) (directory : Place) (path : Path) (node : FileNode) :
    FileTree :=
  match Path.reversedParts (path.splitOn Path.slash) with
  | [] => tree
  | last :: earlier =>
      let reached := (earlier.reverse.filter Path.isPart).foldl enter (tree, directory.origin path)
      if node = .directory then (enter reached last).1
      else reached.1.insert (last :: reached.2) node

end FileTree
end MiniShell
