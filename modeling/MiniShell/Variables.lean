import MiniShell.Bindings
import MiniShell.Path
import MiniShell.ShellError

namespace MiniShell

/-!
# Variables

A command sees the variables of the shell and cannot change them.  Two names
have a meaning: the tracked directory, which is where file arguments are looked
for first, and the status of the last command.  The tracked directory is kept
as a directory marker, a text that ends in a slash.
-/

structure Variables where
  bindings : List (Text × Text) := []
  deriving DecidableEq, Repr

namespace Variables

/-- The name of the variable that holds the tracked directory. -/
def directoryName : Text := "PWD".toList

/-- The name of the variable that holds the status of the last command. -/
def statusName : Text := "?".toList

def get? (scope : Variables) (name : Text) : Option Text :=
  scope.bindings.lookup name

/-- The value of a name.  A name without a value is an error. -/
def get (scope : Variables) (name : Text) : Except ShellError Text :=
  match scope.get? name with
  | some value => .ok value
  | none => .error (.undefinedVariable name)

/-- Give a name a value, in the place of the one that it had. -/
def set (scope : Variables) (name value : Text) : Variables where
  bindings := Bindings.set scope.bindings name value

@[simp] theorem get?_set_self (scope : Variables) (name value : Text) :
    (scope.set name value).get? name = some value :=
  Bindings.lookup_set_self scope.bindings name value

theorem get?_set_of_ne (scope : Variables) {name other : Text} (value : Text)
    (different : other ≠ name) :
    (scope.set name value).get? other = scope.get? other :=
  Bindings.lookup_set_of_ne scope.bindings value different

def directory (scope : Variables) : Except ShellError Text :=
  scope.get directoryName

/-- The marker of a directory: its path as a text, with a slash at the end. -/
def directoryMarker (path : Path) : Text :=
  let text := Utf8.decodeLossy path
  if text.getLast? = some '/' then text else text ++ ['/']

def tracking (path : Path) : Variables :=
  ({} : Variables).set directoryName (directoryMarker path)

def setStatus (scope : Variables) (status : Int) : Variables :=
  scope.set statusName (Decimal.ofInt status)

end Variables
end MiniShell
