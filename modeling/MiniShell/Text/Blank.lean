import MiniShell.Text.Utf8

namespace MiniShell
namespace Blank

/-!
# Blank characters

The property `White_Space` of the Unicode character database, as a table of
inclusive ranges, and the trimming of texts by it.  The table holds twenty-five
characters and is wider than the three characters that separate words.
-/

/-- The inclusive ranges of the property, in ascending order. -/
def ranges : List (Nat × Nat) :=
  [(0x09, 0x0D), (0x20, 0x20), (0x85, 0x85), (0xA0, 0xA0), (0x1680, 0x1680),
    (0x2000, 0x200A), (0x2028, 0x2029), (0x202F, 0x202F), (0x205F, 0x205F),
    (0x3000, 0x3000)]

def isBlank (c : Char) : Bool :=
  ranges.any fun range => range.1 ≤ c.toNat && c.toNat ≤ range.2

/-- The text without the blank characters at its two ends. -/
def trim (text : Text) : Text :=
  (((text.dropWhile isBlank).reverse).dropWhile isBlank).reverse

end Blank
end MiniShell
