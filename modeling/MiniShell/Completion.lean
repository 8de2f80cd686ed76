import MiniShell.Text.Blank

namespace MiniShell
namespace Completion

/-!
# Completing a word

The word that is completed ends at the cursor and starts after the last space
before it.  The first word of a line is completed to a command name, and every
other word to the name of an entry of the tracked directory.  Candidates come in
the order of their bytes, each only once.  If there is only one candidate, and it
is no directory, the space after the word is supplied as well.
-/

/-- An entry of a directory.  A symbolic link is no directory here, whatever it
leads to. -/
structure Entry where
  name : Bytes
  isDirectory : Bool := false
  deriving DecidableEq, Repr

/-- A way to complete a word. -/
structure Candidate where
  /-- The text to choose by. -/
  display : Text
  replacement : Text
  deriving DecidableEq, Repr

/-- A position in a line, with the text on its left cut at the last space. -/
structure Cursor where
  /-- The text up to the last space, with that space. -/
  before : Text
  /-- The word from there to the cursor. -/
  word : Text
  deriving DecidableEq, Repr

/-- The cursor that stands so many bytes into the line, or `none` if it would stand
behind its end or inside a character. -/
def Cursor.at? (line : Text) (position : Nat) : Option Cursor :=
  (Utf8.cut? line position).map fun parts =>
    let isInWord := fun c : Char => c != ' '
    { before := (parts.1.reverse.dropWhile isInWord).reverse
      word := (parts.1.reverse.takeWhile isInWord).reverse }

def Cursor.start (cursor : Cursor) : Nat :=
  (Utf8.encode cursor.before).length

def commandCandidates (commands : List Text) (word : Text) : List Candidate :=
  (commands.filter word.isPrefixOf).map fun name => ⟨name, name⟩

/-- The candidate for an entry, if its name is a text that starts with the word.
The replacement of a directory ends in a slash. -/
def entryCandidate? (word : Text) (entry : Entry) : Option Candidate :=
  (Utf8.decode? entry.name).bind fun name =>
    if word.isPrefixOf name then
      some ⟨name, if entry.isDirectory then name ++ ['/'] else name⟩
    else none

/-- Do the bytes of the first display come no later than those of the second? -/
def precedes (first second : Candidate) : Bool :=
  decide (Utf8.encode first.display ≤ Utf8.encode second.display)

/-- The first candidate of each run of candidates with the same display. -/
def dropRepeats : List Candidate -> List Candidate
  | [] => []
  | [candidate] => [candidate]
  | first :: second :: rest =>
      if first.display = second.display then dropRepeats (first :: rest)
      else first :: dropRepeats (second :: rest)
termination_by candidates => candidates.length

/-- A candidate that is the only one also ends the word, unless it is a directory,
in which the word may go on. -/
def endSingle : List Candidate -> List Candidate
  | [⟨display, replacement⟩] =>
      if replacement.getLast? = some '/' then [⟨display, replacement⟩]
      else [⟨display, replacement ++ [' ']⟩]
  | candidates => candidates

/-- The candidates at a cursor.  The listing is `none` if the tracked directory
cannot be listed. -/
def candidates (commands : List Text) (listing : Option (List Entry))
    (cursor : Cursor) : List Candidate :=
  let found :=
    if cursor.before.all Blank.isBlank then commandCandidates commands cursor.word
    else (listing.getD []).filterMap (entryCandidate? cursor.word)
  endSingle (dropRepeats (found.mergeSort precedes))

end Completion
end MiniShell
