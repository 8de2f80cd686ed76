import MiniShell.Fault.Numbered
import MiniShell.Text.Decimal

namespace MiniShell

/-!
# Faults of files and streams

A fault is what a file or a stream reports when an operation on it fails.
A fault of the operating system carries the system's number and the system's
own words for it.  Its description ends with the number in parentheses, and
its reason is the description without that ending.  Other faults have no
number, and nothing is ever taken off their descriptions.
-/

/-- The faults that have a fixed wording and no number. -/
inductive FaultKind where
  | notFound
  | permissionDenied
  | unexpectedEnd
  deriving DecidableEq, Repr

/-- Why an operation on a file or a stream failed. -/
inductive Fault where
  /-- A numbered fault, with the system's words for it. -/
  | system (code : Int) (words : Text)
  /-- A fault that consists of its description. -/
  | custom (description : Text)
  /-- A fault of which only the kind is known. -/
  | ofKind (kind : FaultKind)
  deriving DecidableEq, Repr

namespace Fault

/-- The system's words for a number, which are made up for a number that it does not use. -/
def systemWords (code : Int) : Text :=
  match numbered.lookup code with
  | some words => words.toList
  | none => "Unknown error ".toList ++ Decimal.ofInt code

def ofCode (code : Int) : Fault :=
  .system code (systemWords code)

/-- What stands between the system's words and the fault number. -/
def codeMark : Text :=
  " (os error ".toList

def kindWords : FaultKind -> Text
  | .notFound => "entity not found".toList
  | .permissionDenied => "permission denied".toList
  | .unexpectedEnd => "unexpected end of file".toList

def description : Fault -> Text
  | .system code words => words ++ codeMark ++ Decimal.ofInt code ++ [')']
  | .custom text => text
  | .ofKind kind => kindWords kind

/-- The part of a text before the last occurrence of a mark, or `none` if the
mark does not occur. -/
def beforeLast? (mark : Text) : Text -> Option Text
  | [] => if mark = [] then some [] else none
  | c :: text =>
      match beforeLast? mark text with
      | some before => some (c :: before)
      | none => if mark.isPrefixOf (c :: text) then some [] else none

/-- The text of a fault without its number.  The number is found by its mark,
from the end, because the words before it may contain the same mark. -/
def reason (fault : Fault) : Text :=
  match fault with
  | .system _ _ => (beforeLast? codeMark fault.description).getD fault.description
  | _ => fault.description

end Fault
end MiniShell
