import MiniShell.Fault
import MiniShell.Proofs.Numerals

namespace MiniShell
namespace Fault

/-!
# The reason of a fault

The description of a numbered fault is cut at the last mark in it.  This gives back
the words that the number was put behind only if no mark begins later than the one
that was put there, neither behind it nor across its end.

The second character of the mark settles this.  It comes once in the mark, and neither
a number nor what closes the description contains it.  So there is no room for a second
character of a later mark.  Nothing is required of the words, which may be full of marks.
-/

/-! ## The last mark in a text -/

variable {mark text before after : Text}

/-- If a mark is missing in a text, there is nothing to cut, and only then. -/
theorem beforeLast?_eq_none_iff (nonempty : mark ≠ []) :
    beforeLast? mark text = none ↔ ¬ mark <:+: text := by
  induction text with
  | nil =>
      rw [beforeLast?, if_neg nonempty, List.infix_nil]
      exact iff_of_true rfl nonempty
  | cons c text ih =>
      rw [beforeLast?, List.infix_cons_iff, not_or, ← ih]
      cases beforeLast? mark text with
      | some before => simp only [reduceCtorEq, and_false]
      | none =>
          simp only [and_true, ite_eq_right_iff, reduceCtorEq, imp_false,
            List.isPrefixOf_iff_prefix]

/-- A mark is the last one if none begins behind its first character. -/
def IsLast (mark after : Text) : Prop :=
  ¬ mark <:+: (mark ++ after).tail

/-- A text is cut at its last mark, whatever stands before it. -/
theorem beforeLast?_append (nonempty : mark ≠ []) (last : IsLast mark after) (before : Text) :
    beforeLast? mark (before ++ (mark ++ after)) = some before := by
  induction before with
  | nil =>
      rcases List.exists_cons_of_ne_nil nonempty with ⟨first, rest, same⟩
      have noneLater := (beforeLast?_eq_none_iff nonempty).mpr last
      have begins : mark.isPrefixOf (mark ++ after) = true :=
        List.isPrefixOf_iff_prefix.mpr (List.prefix_append mark after)
      rw [same, List.cons_append, List.tail_cons] at noneLater
      rw [same, List.cons_append] at begins
      rw [List.nil_append, same, List.cons_append, beforeLast?, noneLater]
      exact if_pos begins
  | cons c before ih =>
      rw [List.cons_append, beforeLast?, ih]

/-- A mark is the last one if its second character differs from the first and does not come
again. -/
theorem isLast_of_second {first second : Char} {rest : Text} (different : first ≠ second)
    (absent : second ∉ rest ++ after) : IsLast (first :: second :: rest) after := by
  rintro ⟨front, back, same⟩
  have split : front ++ first :: second :: (rest ++ back) = second :: (rest ++ after) := by
    simpa only [List.append_assoc, List.cons_append, List.tail_cons] using same
  cases front with
  | nil => exact different (List.cons.inj split).1
  | cons c front =>
      apply absent
      rw [← (List.cons.inj split).2]
      exact List.mem_append_right front (List.mem_cons_of_mem first List.mem_cons_self)

/-! ## Numbered faults -/

theorem parenthesis_not_mem_ofInt (code : Int) : '(' ∉ Decimal.ofInt code := by
  have notDigit : forall {digits : Text}, digits.all Char.isDigit = true -> '(' ∉ digits := by
    intro digits all member
    cases List.all_eq_true.mp all '(' member
  have numeral := Decimal.numeral_ofInt code
  generalize Decimal.ofInt code = text at numeral
  cases numeral with
  | bare _ all => exact notDigit all
  | plus _ all => exact List.not_mem_cons_of_ne_of_not_mem (by decide) (notDigit all)
  | minus _ all => exact List.not_mem_cons_of_ne_of_not_mem (by decide) (notDigit all)

theorem isLast_codeMark (code : Int) : IsLast codeMark (Decimal.ofInt code ++ [')']) := by
  apply isLast_of_second
  · decide
  · apply List.not_mem_append
    · decide
    · exact List.not_mem_append (parenthesis_not_mem_ofInt code) (by decide)

theorem reason_system (code : Int) (words : Text) : (system code words).reason = words := by
  have cut := beforeLast?_append (by decide) (isLast_codeMark code) words
  have parts : (system code words).description =
      words ++ (codeMark ++ (Decimal.ofInt code ++ [')'])) := by
    simp only [description, List.append_assoc]
  simp only [reason, parts, cut, Option.getD_some]

/-! ## All faults -/

/-- The number that the system has given to a fault. -/
def code? : Fault -> Option Int
  | .system code _ => some code
  | .custom _ => none
  | .ofKind _ => none

/-- The reason of a fault with a number is what stands before the number and its mark in the
description, whatever these words are and whatever the number.  The reason of a fault without
a number is its description, whatever this ends in. -/
theorem reason_is_exact (fault : Fault) :
    match fault.code? with
    | some code =>
        fault.description =
            fault.reason ++ " (os error ".toList ++ Decimal.ofInt code ++ ")".toList ∧
          forall words, fault.description =
              words ++ " (os error ".toList ++ Decimal.ofInt code ++ ")".toList ->
            fault.reason = words
    | none => fault.reason = fault.description := by
  cases fault with
  | system code words =>
      dsimp only [code?]
      rw [reason_system]
      refine ⟨rfl, ?_⟩
      intro others same
      exact List.append_cancel_right (List.append_cancel_right (List.append_cancel_right same))
  | custom text => rfl
  | ofKind kind => rfl

/-- Words that end as if a number had already been put behind them. -/
example : (system (-5) "gone (os error 5)".toList).reason = "gone (os error 5)".toList := by
  decide

end Fault
end MiniShell
