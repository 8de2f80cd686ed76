import MiniShell.Text.Utf8

namespace MiniShell

/-- A path is a sequence of bytes.  The slash separates its parts, and all
other bytes are opaque. -/
abbrev Path := Bytes

namespace Path

/-!
# Paths as written

The operations here work on the spelling of a path and never look at files.
Joining keeps both spellings as they are.  Replacing the last part first takes
off what does not count as a part: repeated and trailing slashes, and dots that
stand for the directory before them.
-/

def slash : UInt8 := 0x2F

def dot : Path := [0x2E]

def dotDot : Path := [0x2E, 0x2E]

def isAbsolute (path : Path) : Bool :=
  path.head? == some slash

def endsInSlash (path : Path) : Bool :=
  path.getLast? == some slash

/-- The second path as seen from the first.  An absolute second path stands
alone, and a slash is put between the two only where there is none. -/
def join (base path : Path) : Path :=
  if isAbsolute path then path
  else if base.isEmpty || endsInSlash base then base ++ path
  else base ++ slash :: path

/-- The part of a path that is never taken off: the slash of an absolute path,
or a leading dot that is a part of its own. -/
def anchor (path : Path) : Path :=
  if isAbsolute path then [slash]
  else if path = dot || (dot ++ [slash]).isPrefixOf path then dot
  else []

/-- What follows the anchor, cut at the slashes.  Some pieces may be empty. -/
def pieces (path : Path) : List Path :=
  (path.drop (anchor path).length).splitOn slash

/-- Does the piece count as a part of a path? -/
def isPart (piece : Path) : Bool :=
  !(piece.isEmpty || piece == dot)

/-- The pieces up to the last one that counts as a part, latest first. -/
def reversedParts (pieces : List Path) : List Path :=
  pieces.reverse.dropWhile fun piece => !isPart piece

/-- The path with its last part replaced.  A path that has no part besides its
anchor, and one whose last part names a parent, have nothing to replace, and
the new path is joined to them instead. -/
def replaceFinal (base path : Path) : Path :=
  match reversedParts (pieces base) with
  | [] => join base path
  | last :: earlier =>
      if last = dotDot then join base path
      else
        join (anchor base ++
          [slash].intercalate (reversedParts earlier.reverse).reverse) path

end Path
end MiniShell
