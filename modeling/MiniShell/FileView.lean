import MiniShell.Fault
import MiniShell.Path

namespace MiniShell

/-!
# What can be observed of files

A command never holds a file.  It asks four questions about a path, and the
answers need not be consistent with each other: a path may exist and not be
readable, or be readable and fail to be read.
-/

/-- The answers to the questions that a command may ask about a path. -/
structure FileView where
  isPresent : Path -> Bool
  /-- Can the path be opened for reading? -/
  isReadable : Path -> Bool
  isDirectory : Path -> Bool
  read : Path -> Except Fault Bytes

/-- The answers about one path, independent of each other. -/
structure FileRecord where
  path : Path
  isPresent : Bool := true
  isReadable : Bool := true
  isDirectory : Bool := false
  contents : Except Fault Bytes := .ok []

namespace FileView

/-- The first record about exactly this path. -/
def record? (records : List FileRecord) (path : Path) : Option FileRecord :=
  records.find? fun record => record.path == path

/-- The view in which each path has the answers of its first record.  There is
nothing at a path without a record. -/
def ofRecords (records : List FileRecord) : FileView where
  isPresent path := ((record? records path).map (·.isPresent)).getD false
  isReadable path := ((record? records path).map (·.isReadable)).getD false
  isDirectory path := ((record? records path).map (·.isDirectory)).getD false
  read path := ((record? records path).map (·.contents)).getD (.error (.ofCode 2))

end FileView
end MiniShell
