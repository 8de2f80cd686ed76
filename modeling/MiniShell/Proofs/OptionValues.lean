import MiniShell.Options
import MiniShell.Proofs.Decoding

namespace MiniShell

/-!
# The values of options

A value is accepted if its option has had none before and can have this one.  Each
option keeps its value in a form of its own, as a text, as a rule or as a path.  In the
form in which it was given, it is the same for all of them: a value has been accepted
for an option or not, and accepting one changes nothing about the others.

So it depends on the set of the values alone whether they can all be accepted, and as
what.  Their order only decides which of two mistakes comes first.
-/

/-- Options with their values, in the order in which they are given. -/
abbrev OptionValues := List (Setting × Bytes)

/-- A value that the option can have. -/
def Setting.Admits : Setting -> Bytes -> Prop
  | .command, value => exists line, value = Utf8.encode line
  | .rule, value => exists rule : PathRule, value = Utf8.encode rule.name
  | .directory, value => value ≠ []

theorem PathRule.ofName?_eq_some_iff {spelling : Bytes} {rule : PathRule} :
    ofName? spelling = some rule ↔ spelling = Utf8.encode rule.name := by
  constructor
  · intro named
    unfold ofName? at named
    have matched := List.find?_some named
    exact (beq_iff_eq.mp matched).symm
  · intro same
    rw [same]
    cases rule <;> decide

theorem PathRule.encode_name_inj {rule other : PathRule} :
    Utf8.encode rule.name = Utf8.encode other.name ↔ rule = other := by
  rw [← ofName?_eq_some_iff, ofName?_eq_some_iff.mpr rfl, Option.some.injEq]

namespace Options

theorem ruleOf_eq_ok_iff {value : Bytes} {rule : PathRule} :
    ruleOf value = .ok rule ↔ value = Utf8.encode rule.name := by
  rw [← PathRule.ofName?_eq_some_iff, ruleOf]
  cases PathRule.ofName? value with
  | none => simp only [reduceCtorEq]
  | some found => simp only [Except.ok.injEq, Option.some.injEq]

/-- The value that has been accepted for an option, in the form in which it was given. -/
def Accepted.value? (accepted : Accepted) : Setting -> Option Bytes
  | .command => accepted.command.map Utf8.encode
  | .rule => accepted.rule.map fun rule => Utf8.encode rule.name
  | .directory => accepted.directory

variable {accepted later : Accepted} {setting : Setting} {value : Bytes} {given : OptionValues}

/-- A value that an option can have is accepted if it is the first, and it changes nothing
else. -/
theorem exists_accept (fresh : accepted.value? setting = none) (admits : setting.Admits value) :
    exists later, accept accepted setting value = .ok later ∧ forall other,
      later.value? other = if other = setting then some value else accepted.value? other := by
  cases setting with
  | command =>
      rcases admits with ⟨line, rfl⟩
      have unset : accepted.command = none := Option.map_eq_none_iff.mp fresh
      refine ⟨{ accepted with command := some line }, ?_, ?_⟩
      · rw [accept, unset, Utf8.decode?_encode]
        rfl
      · intro other
        cases other <;> rfl
  | rule =>
      rcases admits with ⟨rule, rfl⟩
      have unset : accepted.rule = none := Option.map_eq_none_iff.mp fresh
      refine ⟨{ accepted with rule := some rule }, ?_, ?_⟩
      · rw [accept, unset, ruleOf_eq_ok_iff.mpr rfl]
        rfl
      · intro other
        cases other <;> rfl
  | directory =>
      have unset : accepted.directory = none := fresh
      refine ⟨{ accepted with directory := some value }, ?_, ?_⟩
      · rw [accept, unset, List.isEmpty_eq_false_iff.mpr admits]
        rfl
      · intro other
        cases other <;> rfl

theorem fresh_of_accept (accepts : accept accepted setting value = .ok later) :
    accepted.value? setting = none := by
  have unset : (accepted.value? setting).isSome = false := by
    apply Bool.eq_false_iff.mpr
    intro set
    cases setting <;> simp only [Accepted.value?, Option.isSome_map] at set <;>
      simp only [accept, set, if_true, reduceCtorEq] at accepts
  exact Option.isSome_eq_false_iff.mp unset |> Option.isNone_iff_eq_none.mp

theorem admits_of_accept (accepts : accept accepted setting value = .ok later) :
    setting.Admits value := by
  cases setting with
  | command =>
      simp only [accept] at accepts
      split at accepts
      · cases accepts
      · split at accepts
        · next line read => exact ⟨line, (Utf8.decode?_eq_some_iff.mp read).symm⟩
        · cases accepts
  | rule =>
      simp only [accept] at accepts
      split at accepts
      · cases accepts
      · cases named : ruleOf value with
        | ok rule => exact ⟨rule, ruleOf_eq_ok_iff.mp named⟩
        | error error =>
            rw [named] at accepts
            cases accepts
  | directory =>
      simp only [accept] at accepts
      split at accepts
      · cases accepts
      · split at accepts
        · cases accepts
        · next given => exact mt List.isEmpty_iff.mpr given

theorem value?_of_accept (accepts : accept accepted setting value = .ok later) (other : Setting) :
    later.value? other = if other = setting then some value else accepted.value? other := by
  rcases exists_accept (fresh_of_accept accepts) (admits_of_accept accepts) with
    ⟨found, same, values⟩
  cases accepts.symm.trans same
  exact values other

/-- Values are accepted one after the other. -/
inductive Accepts : Accepted -> OptionValues -> Accepted -> Prop where
  | nil {accepted : Accepted} : Accepts accepted [] accepted
  | cons {accepted middle later : Accepted} {setting : Setting} {value : Bytes}
      {given : OptionValues} (first : accept accepted setting value = .ok middle)
      (rest : Accepts middle given later) : Accepts accepted ((setting, value) :: given) later

/-- What has been accepted in the end are the values that were given and the earlier ones. -/
theorem Accepts.value?_eq_some_iff (accepts : Accepts accepted given later) :
    later.value? setting = some value ↔
      (setting, value) ∈ given ∨ accepted.value? setting = some value := by
  induction accepts with
  | nil => simp only [List.not_mem_nil, false_or]
  | @cons accepted middle later first firstValue given accepts rest ih =>
      rw [ih, value?_of_accept accepts, List.mem_cons, Prod.mk.injEq]
      by_cases same : setting = first
      · subst same
        rw [if_pos rfl, fresh_of_accept accepts, Option.some.injEq, eq_comm (a := firstValue)]
        simp only [true_and, reduceCtorEq, or_false]
        exact or_comm
      · simp only [same, if_false, false_and, false_or]

/-- All values are accepted if no option comes twice or has had a value before, and each value
is one that its option can have. -/
theorem exists_accepts_iff :
    (exists later, Accepts accepted given later) ↔
      (given.map Prod.fst).Nodup ∧ forall setting value, (setting, value) ∈ given ->
        accepted.value? setting = none ∧ setting.Admits value := by
  induction given generalizing accepted with
  | nil =>
      refine iff_of_true ⟨accepted, .nil⟩ ⟨List.nodup_nil, ?_⟩
      intro setting value member
      cases member
  | cons pair given ih =>
      rcases pair with ⟨setting, value⟩
      rw [List.map_cons, List.nodup_cons]
      constructor
      · rintro ⟨later, accepts⟩
        cases accepts with
        | @cons _ middle _ _ _ _ first rest =>
            rcases ih.mp ⟨later, rest⟩ with ⟨once, each⟩
            have values := value?_of_accept first
            have others : forall other otherValue, (other, otherValue) ∈ given ->
                other ≠ setting := by
              intro other otherValue member same
              have unset := (each other otherValue member).1
              rw [values, if_pos same] at unset
              cases unset
            refine ⟨⟨?_, once⟩, ?_⟩
            · intro again
              rcases List.mem_map.mp again with ⟨⟨other, otherValue⟩, member, same⟩
              exact others other otherValue member same
            · intro other otherValue member
              rcases List.mem_cons.mp member with same | member
              · cases same
                exact ⟨fresh_of_accept first, admits_of_accept first⟩
              · have known := each other otherValue member
                rw [values, if_neg (others other otherValue member)] at known
                exact known
      · rintro ⟨⟨new, once⟩, each⟩
        rcases each setting value List.mem_cons_self with ⟨fresh, admits⟩
        rcases exists_accept fresh admits with ⟨middle, first, values⟩
        have rest : exists later, Accepts middle given later := by
          apply ih.mpr
          refine ⟨once, ?_⟩
          intro other otherValue member
          have different : other ≠ setting := by
            intro same
            exact new (List.mem_map.mpr ⟨_, member, same⟩)
          rw [values, if_neg different]
          exact each other otherValue (List.mem_cons_of_mem _ member)
        rcases rest with ⟨later, rest⟩
        exact ⟨later, .cons first rest⟩

end Options
end MiniShell
