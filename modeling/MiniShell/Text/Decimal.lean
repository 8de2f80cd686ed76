import MiniShell.Text.Utf8

namespace MiniShell
namespace Decimal

/-!
# Decimal numbers

Statuses are written as decimal numbers, and an exit code is read from one.
Reading admits a single sign, any number of leading zeros, ASCII digits only,
and nothing else.
-/

/-- The decimal text of an integer, with a minus sign in front of a negative
one and no superfluous zeros. -/
def ofInt : Int -> Text
  | .ofNat n => Nat.toDigits 10 n
  | .negSucc n => '-' :: Nat.toDigits 10 (n + 1)

def digit? (c : Char) : Option Nat :=
  if '0' ≤ c ∧ c ≤ '9' then some (c.toNat - '0'.toNat) else none

def natural? : Text -> Option Nat
  | [] => none
  | text => text.foldlM (fun value c => (digit? c).map (10 * value + ·)) 0

/-- The value of a natural number with at most one sign before it. -/
def signed? : Text -> Option Int
  | '+' :: digits => (natural? digits).map Int.ofNat
  | '-' :: digits => (natural? digits).map fun value => -(value : Int)
  | digits => (natural? digits).map Int.ofNat

/-- The value of a signed number that fits in thirty-two bits. -/
def word32? (text : Text) : Option Int :=
  (signed? text).filter fun value => -2147483648 ≤ value && value ≤ 2147483647

end Decimal
end MiniShell
