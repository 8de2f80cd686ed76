import MiniShell.FileView
import MiniShell.Variables

namespace MiniShell

/-!
# From an argument to a path

An argument is tried in two places: at its candidate, which lies where the
tracked directory says, and then as it is written.  There is no third place,
and an empty argument has none at all.
-/

/-- How a candidate is built from the tracked directory. -/
inductive PathRule where
  /-- The argument takes the place of the last part of the tracked path.  A
  directory marker ends in an empty part, so there the argument lands inside
  the directory. -/
  | replaceFinal
  /-- The argument is a child of the tracked path. -/
  | append
  deriving DecidableEq, Repr, Inhabited

namespace PathRule

def name : PathRule -> Text
  | .replaceFinal => "replace-final".toList
  | .append => "append".toList

def all : List PathRule := [.replaceFinal, .append]

/-- The rule of a name, which has to be spelled exactly. -/
def ofName? (spelling : Bytes) : Option PathRule :=
  all.find? fun rule => Utf8.encode rule.name == spelling

/-- The path at which an argument is tried first. -/
def candidate (rule : PathRule) (directory argument : Path) : Path :=
  match rule with
  | .append => Path.join directory argument
  | .replaceFinal =>
      if directory.isEmpty || Path.endsInSlash directory then
        Path.join directory argument
      else Path.replaceFinal directory argument

/-- The paths at which an argument is tried, in their order. -/
def places (rule : PathRule) (directory argument : Text) : List Path :=
  if argument.isEmpty then []
  else [rule.candidate (Utf8.encode directory) (Utf8.encode argument),
    Utf8.encode argument]

end PathRule

/-- The search for the path of an argument: the paths that were asked for, in
order, and the one that was found. -/
structure Lookup where
  found : Option Path
  asked : List Path
  deriving DecidableEq, Repr

namespace Lookup

/-- Ask for one path after the other until one is present. -/
def first (files : FileView) : List Path -> Lookup
  | [] => ⟨none, []⟩
  | path :: paths =>
      if files.isPresent path then ⟨some path, [path]⟩
      else
        let later := first files paths
        ⟨later.found, path :: later.asked⟩

def ofArgument (rule : PathRule) (files : FileView) (directory text : Text) : Lookup :=
  first files (rule.places directory text)

/-- The search for an argument below the directory that the variables name. -/
def inVariables (rule : PathRule) (files : FileView) (scope : Variables)
    (text : Text) : Except ShellError Lookup :=
  scope.directory.map fun directory => ofArgument rule files directory text

end Lookup
end MiniShell
