import MiniShell.Proofs.OptionValues

namespace MiniShell

/-!
# Spelling options

An option and its value are spelled by a group of arguments: by two, of which the second
is not to be mistaken for an option, or by one.  The arguments of a command line are
groups, and two dashes may follow them.

What an argument is read as can be said without its neighbours.  If it has a place in
a group, then its reading tells which one.  Arguments are therefore groups exactly if
their readings are, and no arguments can be cut into groups in two ways.
-/

open Token

/-- The option without its value. -/
def Setting.flag : Setting -> Bytes
  | .command => Utf8.encode "-c".toList
  | .rule => Utf8.encode "--path-rule".toList
  | .directory => Utf8.encode "--cwd".toList

/-- An argument that does not begin with a dash, unless it is a dash. -/
def IsUndashed (argument : Bytes) : Prop :=
  argument.head? = some dash -> argument = [dash]

/-- An option with its value, and the arguments that spell them. -/
inductive Setting.Spelling : Setting -> Bytes -> List Bytes -> Prop where
  | separate {setting : Setting} {value : Bytes} (undashed : IsUndashed value) :
      Spelling setting value [setting.flag, value]
  | joined {setting : Setting} {value : Bytes} :
      Spelling setting value [setting.flag ++ equals :: value]
  /-- Only behind the short option, and only where the first character of the value is not
  taken for the sign between the two. -/
  | attached {value : Bytes} (nonempty : value ≠ []) (noEquals : value.head? ≠ some equals) :
      Spelling .command value [Setting.command.flag ++ value]

/-- Options with their values, in order, and arguments that spell them. -/
inductive Spells : OptionValues -> List Bytes -> Prop where
  | nil : Spells [] []
  | terminated : Spells [] [[dash, dash]]
  | cons {setting : Setting} {value : Bytes} {group : List Bytes}
      {given : OptionValues} {arguments : List Bytes}
      (first : setting.Spelling value group) (rest : Spells given arguments) :
      Spells ((setting, value) :: given) (group ++ arguments)

/-- The same with the readings of the arguments. -/
inductive Groups : OptionValues -> List Token -> Prop where
  | nil : Groups [] []
  | terminated : Groups [] [.terminator]
  | complete {setting : Setting} {value : Bytes} {given : OptionValues}
      {tokens : List Token} (rest : Groups given tokens) :
      Groups ((setting, value) :: given) (.complete setting value :: tokens)
  | separate {setting : Setting} {value : Bytes} {given : OptionValues}
      {tokens : List Token} (rest : Groups given tokens) :
      Groups ((setting, value) :: given) (.opening setting :: .plain value :: tokens)

theorem Groups.unique {given other : OptionValues} {tokens : List Token}
    (groups : Groups given tokens) (others : Groups other tokens) : given = other := by
  induction groups generalizing other with
  | nil =>
      cases others
      rfl
  | terminated =>
      cases others
      rfl
  | complete rest ih =>
      cases others with
      | complete rest' => rw [ih rest']
  | separate rest ih =>
      cases others with
      | separate rest' => rw [ih rest']

namespace Token

/-- What an argument is, if it has this reading and a place in a group. -/
def IsReadingOf : Token -> Bytes -> Prop
  | .terminator, argument => argument = [dash, dash]
  | .complete setting value, argument => setting.Spelling value [argument]
  | .opening setting, argument => argument = setting.flag
  | .plain value, argument => argument = value ∧ IsUndashed argument
  | .help, _ | .helpWithValue, _ | .unknown, _ => True

theorem isReadingOf_ofLong (body : Bytes) : (ofLong body).IsReadingOf (dash :: dash :: body) := by
  have parts : body.takeWhile (· != equals) ++ body.dropWhile (· != equals) = body :=
    List.takeWhile_append_dropWhile
  have stops := List.head?_dropWhile_not (· != equals) body
  simp only [ofLong]
  generalize body.takeWhile (· != equals) = name at parts ⊢
  generalize body.dropWhile (· != equals) = behind at parts stops ⊢
  rw [← parts]
  cases behind with
  | nil =>
      rw [List.append_nil]
      split
      · next named =>
          rw [named]
          exact rfl
      · split
        · next named =>
            rw [named]
            exact rfl
        · split <;> trivial
  | cons byte value =>
      have isEquals : byte = equals := bne_eq_false_iff_eq.mp stops
      rw [isEquals]
      split
      · next named =>
          rw [named]
          exact @Setting.Spelling.joined .rule value
      · split
        · next named =>
            rw [named]
            exact @Setting.Spelling.joined .directory value
        · split <;> trivial

theorem isReadingOf_ofShort (letter : UInt8) (rest : Bytes) :
    (ofShort letter rest).IsReadingOf (dash :: letter :: rest) := by
  simp only [ofShort]
  split
  · next named =>
      have flag : dash :: letter :: rest = Setting.command.flag ++ rest :=
        congrArg (fun named => dash :: (named ++ rest)) named
      rw [flag]
      cases rest with
      | nil => exact List.append_nil _
      | cons byte value =>
          dsimp only
          split
          · next isEquals =>
              rw [isEquals]
              exact .joined
          · next notEquals =>
              exact .attached (List.cons_ne_nil _ _) (mt Option.some.inj notEquals)
  · split <;> trivial

theorem isReadingOf_ofArgument (argument : Bytes) :
    (ofArgument argument).IsReadingOf argument := by
  unfold ofArgument
  split
  · next first second rest =>
      by_cases dashed : first = dash
      · subst dashed
        rw [bne_self_eq_false, if_neg Bool.false_ne_true]
        by_cases twice : second = dash
        · subst twice
          rw [bne_self_eq_false, if_neg Bool.false_ne_true]
          cases rest with
          | nil => exact rfl
          | cons byte rest => exact isReadingOf_ofLong (byte :: rest)
        · rw [if_pos (bne_iff_ne.mpr twice)]
          exact isReadingOf_ofShort second rest
      · rw [if_pos (bne_iff_ne.mpr dashed)]
        exact ⟨rfl, fun same => absurd (Option.some.inj same) dashed⟩
  · next short =>
      refine ⟨rfl, ?_⟩
      intro dashed
      rcases List.head?_eq_some_iff.mp dashed with ⟨rest, same⟩
      cases rest with
      | nil => exact same
      | cons second rest => exact absurd same (short _ _ _)

theorem ofArgument_flag (setting : Setting) : ofArgument setting.flag = .opening setting := by
  cases setting <;> decide

theorem ofArgument_of_isUndashed {argument : Bytes} (undashed : IsUndashed argument) :
    ofArgument argument = .plain argument := by
  unfold ofArgument
  split
  · next first second rest =>
      have different : first ≠ dash := by
        intro same
        cases undashed (congrArg some same)
      rw [if_pos (bne_iff_ne.mpr different)]
  · rfl

theorem ofArgument_joined (setting : Setting) (value : Bytes) :
    ofArgument (setting.flag ++ equals :: value) = .complete setting value := by
  cases setting <;> rfl

theorem ofArgument_attached {value : Bytes} (nonempty : value ≠ [])
    (noEquals : value.head? ≠ some equals) :
    ofArgument (Setting.command.flag ++ value) = .complete .command value := by
  cases value with
  | nil => exact absurd rfl nonempty
  | cons byte value =>
      have different : byte ≠ equals := mt (congrArg some) noEquals
      change (if byte = equals then complete .command value
        else complete .command (byte :: value)) = _
      exact if_neg different

end Token

theorem groups_of_spells {given : OptionValues} {arguments : List Bytes}
    (spells : Spells given arguments) : Groups given (arguments.map ofArgument) := by
  induction spells with
  | nil => exact .nil
  | terminated => exact .terminated
  | cons first rest ih =>
      rw [List.map_append]
      cases first with
      | separate undashed =>
          rw [List.map_cons, List.map_singleton, ofArgument_flag,
            ofArgument_of_isUndashed undashed]
          exact .separate ih
      | joined =>
          rw [List.map_singleton, ofArgument_joined]
          exact .complete ih
      | attached nonempty noEquals =>
          rw [List.map_singleton, ofArgument_attached nonempty noEquals]
          exact .complete ih

theorem spells_of_groups {given : OptionValues} {arguments : List Bytes}
    (groups : Groups given (arguments.map ofArgument)) : Spells given arguments := by
  generalize same : arguments.map ofArgument = tokens at groups
  induction groups generalizing arguments with
  | nil =>
      rw [List.map_eq_nil_iff.mp same]
      exact .nil
  | terminated =>
      rcases List.map_eq_singleton_iff.mp same with ⟨argument, only, read⟩
      have reading := isReadingOf_ofArgument argument
      rw [read] at reading
      rw [only, show argument = _ from reading]
      exact .terminated
  | complete rest ih =>
      rcases List.map_eq_cons_iff.mp same with ⟨argument, others, parts, read, same⟩
      have reading := isReadingOf_ofArgument argument
      rw [read] at reading
      rw [parts]
      exact .cons reading (ih same)
  | separate rest ih =>
      rcases List.map_eq_cons_iff.mp same with ⟨flag, _, parts, readFlag, behind⟩
      rcases List.map_eq_cons_iff.mp behind with ⟨argument, others, rfl, readValue, left⟩
      have isFlag := isReadingOf_ofArgument flag
      have isValue := isReadingOf_ofArgument argument
      rw [readFlag] at isFlag
      rw [readValue] at isValue
      rcases isValue with ⟨rfl, undashed⟩
      rw [parts, show flag = _ from isFlag]
      exact .cons (.separate undashed) (ih left)

end MiniShell
