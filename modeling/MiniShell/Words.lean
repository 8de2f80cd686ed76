import MiniShell.Text.Utf8

namespace MiniShell
namespace Words

/-!
# The words of a command line

A line is read one character at a time, and a reader records the finished
words, the word that is still open, and the place that the last character led
to.  Only tab, space and newline separate words.  Quotes and backslashes may
change in the middle of a word, which goes on across them, so a pair of quotes
with nothing between them is a word without characters.

Reading is a left fold over the line.  What a piece of a line does to a reader
is therefore independent of what follows the piece.
-/

/-- Where the reader stands after the characters read so far. -/
inductive Place where
  /-- No word is open. -/
  | between
  | betweenEscape
  /-- Inside a comment, which ends with the line. -/
  | comment
  | bare
  | bareEscape
  /-- Between single quotes, where every other character is literal. -/
  | single
  | double
  | doubleEscape
  deriving DecidableEq, Repr

/-- The state of reading.  Both lists are kept with the latest entry first. -/
structure Reader where
  place : Place := .between
  word : Text := []
  finished : List Text := []
  deriving DecidableEq, Repr

def isSeparator (c : Char) : Bool :=
  c == '\t' || c == ' ' || c == '\n'

/-- The characters that a backslash makes literal between double quotes.
Before any other character but a newline the backslash itself is kept. -/
def isEscapable (c : Char) : Bool :=
  c == '$' || c == '`' || c == '"' || c == '\\'

namespace Reader

def goto (reader : Reader) (place : Place) : Reader :=
  { reader with place := place }

def push (reader : Reader) (c : Char) (place : Place) : Reader :=
  { reader with place := place, word := c :: reader.word }

def close (reader : Reader) : Reader where
  place := .between
  word := []
  finished := reader.word.reverse :: reader.finished

/-- Read one character.  A backslash before a newline joins two lines: both
characters disappear, inside a word and outside. -/
def step (reader : Reader) (c : Char) : Reader :=
  match reader.place with
  | .between =>
      if isSeparator c then reader
      else if c = '\'' then reader.goto .single
      else if c = '"' then reader.goto .double
      else if c = '\\' then reader.goto .betweenEscape
      else if c = '#' then reader.goto .comment
      else reader.push c .bare
  | .betweenEscape =>
      if c = '\n' then reader.goto .between else reader.push c .bare
  | .comment =>
      if c = '\n' then reader.goto .between else reader
  | .bare =>
      if isSeparator c then reader.close
      else if c = '\'' then reader.goto .single
      else if c = '"' then reader.goto .double
      else if c = '\\' then reader.goto .bareEscape
      else reader.push c .bare
  | .bareEscape =>
      if c = '\n' then reader.goto .bare else reader.push c .bare
  | .single =>
      if c = '\'' then reader.goto .bare else reader.push c .single
  | .double =>
      if c = '"' then reader.goto .bare
      else if c = '\\' then reader.goto .doubleEscape
      else reader.push c .double
  | .doubleEscape =>
      if c = '\n' then reader.goto .double
      else if isEscapable c then reader.push c .double
      else (reader.push '\\' .double).push c .double

/-- The words at the end of the line.  A backslash that nothing follows is
literal, and quotes that are still open leave the line without words. -/
def finish (reader : Reader) : Option (List Text) :=
  match reader.place with
  | .between | .comment => some reader.finished.reverse
  | .bare => some reader.close.finished.reverse
  | .betweenEscape | .bareEscape =>
      some (reader.push '\\' .bare).close.finished.reverse
  | .single | .double | .doubleEscape => none

end Reader

/-- The words of a line, or `none` if its quotes are not closed. -/
def split (line : Text) : Option (List Text) :=
  (line.foldl Reader.step {}).finish

end Words
end MiniShell
