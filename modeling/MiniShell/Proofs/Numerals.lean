import Mathlib.Data.Nat.Digits.Lemmas
import MiniShell.Text.Decimal

namespace MiniShell
namespace Decimal

/-!
# Numbers in thirty-two bits

A numeral is at most one sign and then one or more digits, and its value is given by the
positions of the digits.  Reading accepts exactly the numerals, and of these exactly the ones
whose value fits in thirty-two bits.

A reader that works in thirty-two bits cannot read first and look at the size afterwards.
It checks every product and every sum, and it counts down behind a minus sign, because the
lowest value has no counterpart above zero.  The magnitude only grows while digits are read,
so a number that does not fit is never left again.  Hence checking every step comes to the
same as checking the value at the end.
-/

/-! ## Numerals -/

/-- The value of digits by their positions. -/
def positional (digits : Text) : Nat :=
  Nat.ofDigits 10 (digits.reverse.map fun c => c.toNat - '0'.toNat)

/-- A text that is a number, and the number. -/
inductive Numeral : Text -> Int -> Prop where
  | bare {digits : Text} (some : digits ≠ []) (all : digits.all Char.isDigit = true) :
      Numeral digits (positional digits)
  | plus {digits : Text} (some : digits ≠ []) (all : digits.all Char.isDigit = true) :
      Numeral ('+' :: digits) (positional digits)
  | minus {digits : Text} (some : digits ≠ []) (all : digits.all Char.isDigit = true) :
      Numeral ('-' :: digits) (-(positional digits : Int))

/-- The values of thirty-two bits, half of them below zero. -/
def FitsWord32 (value : Int) : Prop :=
  -2 ^ 31 ≤ value ∧ value ≤ 2 ^ 31 - 1

instance decidableFitsWord32 (value : Int) : Decidable (FitsWord32 value) :=
  inferInstanceAs (Decidable (-2 ^ 31 ≤ value ∧ value ≤ 2 ^ 31 - 1))

/-! ## Reading digits -/

theorem positional_concat (digits : Text) (c : Char) :
    positional (digits ++ [c]) = 10 * positional digits + (c.toNat - '0'.toNat) := by
  rw [positional, positional, List.reverse_append, List.reverse_singleton,
    List.singleton_append, List.map_cons, Nat.ofDigits_cons, Nat.add_comm]

theorem ofDigitChars_eq_positional (digits : Text) :
    Nat.ofDigitChars 10 digits 0 = positional digits := by
  induction digits using List.reverseRecOn with
  | nil => rfl
  | append_singleton digits c ih =>
      rw [positional_concat, Nat.ofDigitChars_append, ih]
      rfl

theorem le_ofDigitChars (digits : Text) (start : Nat) :
    start ≤ Nat.ofDigitChars 10 digits start := by
  rw [Nat.ofDigitChars_eq_ofDigitChars_zero]
  exact Nat.le_add_right_of_le (Nat.le_mul_of_pos_left start (Nat.pow_pos (by decide)))

theorem digit?_eq (c : Char) :
    digit? c = if c.isDigit = true then some (c.toNat - '0'.toNat) else none := by
  have same : ('0' ≤ c ∧ c ≤ '9') ↔ c.isDigit = true := by
    rw [Char.isDigit, Bool.and_eq_true, decide_eq_true_iff, decide_eq_true_iff]
    exact Iff.rfl
  simp only [digit?, same]

theorem foldlM_digits (digits : Text) (start : Nat) :
    digits.foldlM (fun value c => (digit? c).map (10 * value + ·)) start =
      if digits.all Char.isDigit = true then some (Nat.ofDigitChars 10 digits start)
      else none := by
  induction digits generalizing start with
  | nil => rfl
  | cons c digits ih =>
      rw [List.foldlM_cons, digit?_eq, List.all_cons]
      cases c.isDigit with
      | true =>
          simp only [if_true, Option.map_some, Option.bind_eq_bind, Option.bind_some, ih,
            Bool.true_and, Nat.ofDigitChars_cons]
      | false => rfl

theorem natural?_eq (digits : Text) :
    natural? digits =
      if digits ≠ [] ∧ digits.all Char.isDigit = true then some (positional digits)
      else none := by
  cases digits with
  | nil => rfl
  | cons c digits =>
      have given : c :: digits ≠ [] := List.cons_ne_nil c digits
      simp only [natural?, foldlM_digits, ofDigitChars_eq_positional, given, true_and,
        ne_eq, not_false_eq_true]

theorem natural?_eq_some_iff {digits : Text} {value : Nat} :
    natural? digits = some value ↔
      digits ≠ [] ∧ digits.all Char.isDigit = true ∧ positional digits = value := by
  rw [natural?_eq, Option.ite_none_right_eq_some, and_assoc, Option.some.injEq]

/-- A sign is no digit. -/
theorem signed?_of_digits {digits : Text} (all : digits.all Char.isDigit = true) :
    signed? digits = (natural? digits).map Int.ofNat := by
  unfold signed?
  split
  · cases all
  · cases all
  · rfl

theorem signed?_minus (digits : Text) :
    signed? ('-' :: digits) = (natural? digits).map fun magnitude : Nat => -(magnitude : Int) := by
  rw [signed?]
  cases natural? digits <;> rfl

theorem signed?_eq_some_iff {text : Text} {value : Int} :
    signed? text = some value ↔ Numeral text value := by
  constructor
  · intro read
    unfold signed? at read
    split at read
    · rcases Option.map_eq_some_iff.mp read with ⟨magnitude, digits, rfl⟩
      rcases natural?_eq_some_iff.mp digits with ⟨some, all, rfl⟩
      exact .plus some all
    · have negated := (signed?_minus _).symm.trans read
      rcases Option.map_eq_some_iff.mp negated with ⟨magnitude, digits, rfl⟩
      rcases natural?_eq_some_iff.mp digits with ⟨some, all, rfl⟩
      exact .minus some all
    · rcases Option.map_eq_some_iff.mp read with ⟨magnitude, digits, rfl⟩
      rcases natural?_eq_some_iff.mp digits with ⟨some, all, rfl⟩
      exact .bare some all
  · intro numeral
    cases numeral with
    | bare some all =>
        rw [signed?_of_digits all, natural?_eq_some_iff.mpr ⟨some, all, rfl⟩]
        rfl
    | plus some all =>
        rw [signed?, natural?_eq_some_iff.mpr ⟨some, all, rfl⟩]
        rfl
    | minus some all =>
        rw [signed?_minus, natural?_eq_some_iff.mpr ⟨some, all, rfl⟩]
        rfl

theorem fitsWord32_iff {value : Int} :
    FitsWord32 value ↔ (-2147483648 ≤ value && value ≤ 2147483647) = true := by
  rw [FitsWord32, Bool.and_eq_true, decide_eq_true_iff, decide_eq_true_iff]
  exact Iff.rfl

/-- Reading accepts the numerals whose value fits, and nothing else. -/
theorem word32?_eq_some_iff {text : Text} {value : Int} :
    word32? text = some value ↔ Numeral text value ∧ FitsWord32 value := by
  rw [word32?, Option.filter_eq_some_iff, signed?_eq_some_iff, fitsWord32_iff]

/-- What is written for a number is a numeral of this value. -/
theorem numeral_ofInt (value : Int) : Numeral (ofInt value) value := by
  have digits : forall n : Nat, Nat.toDigits 10 n ≠ [] ∧
      (Nat.toDigits 10 n).all Char.isDigit = true ∧ positional (Nat.toDigits 10 n) = n := by
    intro n
    refine ⟨Nat.toDigits_ne_nil, ?_, ?_⟩
    · apply List.all_eq_true.mpr
      intro c member
      exact Nat.isDigit_of_mem_toDigits (by decide) (by decide) member
    · rw [← ofDigitChars_eq_positional, Nat.ofDigitChars_ten_toDigits]
  cases value with
  | ofNat n =>
      rcases digits n with ⟨some, all, same⟩
      have numeral := Numeral.bare some all
      rwa [same] at numeral
  | negSucc n =>
      rcases digits (n + 1) with ⟨some, all, same⟩
      have numeral := Numeral.minus some all
      rwa [same] at numeral

/-! ## Checking every step -/

def fitting? (value : Int) : Option Int :=
  if FitsWord32 value then some value else none

/-- One digit more.  The product and the sum are checked, and the digit counts with the
sign. -/
def extend? (sign value : Int) (c : Char) : Option Int := do
  let digit ← digit? c
  let scaled ← fitting? (10 * value)
  fitting? (scaled + sign * digit)

def extendAll? (sign : Int) : Text -> Option Int
  | [] => none
  | digits => digits.foldlM (extend? sign) 0

/-- Reading in which no number on the way may fail to fit. -/
def stepwise? : Text -> Option Int
  | '+' :: digits => extendAll? 1 digits
  | '-' :: digits => extendAll? (-1) digits
  | digits => extendAll? 1 digits

section Steps

variable {sign : Int} {most : Nat}

/-- With its sign, a magnitude fits as far as `most`. -/
def FitsUpTo (sign : Int) (most : Nat) : Prop :=
  forall magnitude : Nat, FitsWord32 (sign * magnitude) ↔ magnitude ≤ most

theorem fitsUpTo_above : FitsUpTo 1 (2 ^ 31 - 1) := by
  intro magnitude
  rw [FitsWord32]
  omega

/-- Below zero there is room for one number more. -/
theorem fitsUpTo_below : FitsUpTo (-1) (2 ^ 31) := by
  intro magnitude
  rw [FitsWord32]
  omega

theorem FitsUpTo.fitting?_eq (fits : FitsUpTo sign most) (magnitude : Nat) :
    fitting? (sign * magnitude) =
      if magnitude ≤ most then some (sign * magnitude) else none := by
  simp only [fitting?, fits magnitude]

theorem FitsUpTo.extend?_eq (fits : FitsUpTo sign most) (magnitude : Nat) (c : Char) :
    extend? sign (sign * magnitude) c =
      if c.isDigit = true ∧ 10 * magnitude + (c.toNat - '0'.toNat) ≤ most then
        some (sign * (10 * magnitude + (c.toNat - '0'.toNat) : Nat))
      else none := by
  have product : 10 * (sign * magnitude) = sign * (10 * magnitude : Nat) := by
    push_cast
    ring
  have sum : forall digit : Nat, sign * (10 * magnitude : Nat) + sign * digit =
      sign * (10 * magnitude + digit : Nat) := by
    intro digit
    push_cast
    ring
  rw [extend?, digit?_eq, product, fits.fitting?_eq]
  by_cases isDigit : c.isDigit = true
  · by_cases room : 10 * magnitude ≤ most
    · simp only [isDigit, room, if_true, Option.bind_eq_bind, Option.bind_some, sum,
        fits.fitting?_eq, true_and]
    · have noRoom : ¬ 10 * magnitude + (c.toNat - '0'.toNat) ≤ most := by omega
      simp only [isDigit, room, noRoom, if_true, if_false, Option.bind_eq_bind,
        Option.bind_some, Option.bind_none, and_false]
  · simp only [isDigit, if_false, Option.bind_eq_bind, Option.bind_none, false_and,
      Bool.false_eq_true]

/-- A number that has failed to fit would not fit at the end either, so nothing is lost by
checking every step. -/
theorem FitsUpTo.foldlM_extend? (fits : FitsUpTo sign most) (digits : Text) {start : Nat}
    (room : start ≤ most) :
    digits.foldlM (extend? sign) (sign * start) =
      if digits.all Char.isDigit = true ∧ Nat.ofDigitChars 10 digits start ≤ most then
        some (sign * Nat.ofDigitChars 10 digits start)
      else none := by
  induction digits generalizing start with
  | nil =>
      rw [Nat.ofDigitChars_nil, if_pos ⟨rfl, room⟩]
      rfl
  | cons c digits ih =>
      rw [List.foldlM_cons, fits.extend?_eq, Nat.ofDigitChars_cons]
      simp only [List.all_cons, Bool.and_eq_true]
      by_cases isDigit : c.isDigit = true
      · by_cases roomNext : 10 * start + (c.toNat - '0'.toNat) ≤ most
        · rw [if_pos ⟨isDigit, roomNext⟩]
          exact (ih roomNext).trans (by simp only [isDigit, true_and])
        · have grows := le_ofDigitChars digits (10 * start + (c.toNat - '0'.toNat))
          rw [if_neg (mt And.right roomNext), if_neg]
          · rfl
          · rintro ⟨-, roomLast⟩
            exact roomNext (Nat.le_trans grows roomLast)
      · rw [if_neg (mt And.left isDigit), if_neg (fun all => isDigit all.1.1)]
        rfl

theorem FitsUpTo.extendAll?_eq (fits : FitsUpTo sign most) (digits : Text) :
    extendAll? sign digits = ((natural? digits).map fun magnitude : Nat =>
      sign * magnitude).filter fun value => decide (FitsWord32 value) := by
  cases digits with
  | nil => rfl
  | cons c digits =>
      have started : (sign * (0 : Nat) : Int) = 0 := Int.mul_zero sign
      have folded := fits.foldlM_extend? (c :: digits) (Nat.zero_le most)
      rw [started, ofDigitChars_eq_positional] at folded
      rw [natural?_eq]
      apply folded.trans
      by_cases all : (c :: digits).all Char.isDigit = true
      · have given : c :: digits ≠ [] ∧ (c :: digits).all Char.isDigit = true :=
          ⟨List.cons_ne_nil c digits, all⟩
        rw [if_pos given, Option.map_some, Option.filter_some]
        simp only [all, true_and, decide_eq_true_iff, fits (positional (c :: digits))]
      · rw [if_neg (mt And.left all), if_neg (mt And.right all)]
        rfl

end Steps

/-- Checking every product and every sum comes to the same as checking the value. -/
theorem stepwise?_eq_word32? (text : Text) : stepwise? text = word32? text := by
  have checks : forall value : Int, decide (FitsWord32 value) =
      (-2147483648 ≤ value && value ≤ 2147483647) := by
    intro value
    rw [Bool.eq_iff_iff, decide_eq_true_iff, fitsWord32_iff]
  unfold stepwise?
  split
  · simp only [fitsUpTo_above.extendAll?_eq, checks, Int.one_mul]
    rfl
  · simp only [fitsUpTo_below.extendAll?_eq, checks, Int.neg_one_mul, word32?, signed?_minus]
  · simp only [fitsUpTo_above.extendAll?_eq, checks, Int.one_mul, word32?, signed?]
    rfl

end Decimal
end MiniShell
