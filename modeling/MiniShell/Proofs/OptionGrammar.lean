import MiniShell.Proofs.ArgumentSpelling

namespace MiniShell
namespace Options

/-!
# The grammar of the arguments

Arguments are accepted exactly if they spell options with values that can be given
together.  What they mean is nothing but these values: neither the order of the groups
nor their spelling can be seen in the options.

Reading goes on from one argument to the next and remembers an option that is not
finished.  What it remembers stands for tokens that have been read and not yet been used.
With these tokens put back in front of the ones to come, reading a token leaves the
groups as they were, and so the groups of the whole are found by induction on the
tokens.

Nothing is said about which mistake is reported.  That does depend on the order.
-/

open Token

/-! ## Reading -/

theorem bind_eq_ok_iff {α β : Type} {first : Except OptionsError α}
    {next : α -> Except OptionsError β} {result : β} :
    first >>= next = .ok result ↔ exists value, first = .ok value ∧ next value = .ok result := by
  constructor
  · intro ended
    cases first with
    | ok value => exact ⟨value, rfl, ended⟩
    | error error => cases ended
  · rintro ⟨value, rfl, ended⟩
    exact ended

/-- Read the tokens from a state on, and settle what is left at the end. -/
def read (reading : Reading) (tokens : List Token) : Except OptionsError Accepted :=
  tokens.foldlM step reading >>= settle

theorem read_nil (reading : Reading) : read reading [] = settle reading :=
  rfl

theorem read_cons (reading : Reading) (token : Token) (tokens : List Token) :
    read reading (token :: tokens) = step reading token >>= fun next => read next tokens := by
  rw [read, List.foldlM_cons, bind_assoc]
  rfl

/-- The tokens that an unfinished option was read from. -/
def Unfinished.tokens : Unfinished -> List Token
  | .nothing => []
  | .awaiting setting => [.opening setting]
  | .unchecked setting value => [.opening setting, .plain value]

/-- The tokens are groups, and their values are accepted after what has been accepted. -/
def Yields (accepted : Accepted) (tokens : List Token) (later : Accepted) : Prop :=
  exists given, Groups given tokens ∧ Accepts accepted given later

variable {accepted middle later : Accepted} {setting : Setting} {value : Bytes}
  {token : Token} {tokens : List Token} {unfinished : Unfinished}

theorem yields_nil_iff : Yields accepted [] later ↔ accepted = later := by
  constructor
  · rintro ⟨given, groups, accepts⟩
    cases groups
    cases accepts
    rfl
  · intro same
    exact ⟨[], .nil, same ▸ .nil⟩

theorem yields_terminator_iff :
    Yields accepted (.terminator :: tokens) later ↔ tokens = [] ∧ accepted = later := by
  constructor
  · rintro ⟨given, groups, accepts⟩
    cases groups
    cases accepts
    exact ⟨rfl, rfl⟩
  · rintro ⟨rfl, rfl⟩
    exact ⟨[], .terminated, .nil⟩

theorem yields_complete_iff :
    Yields accepted (.complete setting value :: tokens) later ↔
      exists middle, accept accepted setting value = .ok middle ∧ Yields middle tokens later := by
  constructor
  · rintro ⟨given, groups, accepts⟩
    cases groups with
    | complete rest =>
        cases accepts with
        | cons first others => exact ⟨_, first, _, rest, others⟩
  · rintro ⟨middle, first, given, rest, others⟩
    exact ⟨_, .complete rest, .cons first others⟩

theorem yields_separate_iff :
    Yields accepted (.opening setting :: .plain value :: tokens) later ↔
      exists middle, accept accepted setting value = .ok middle ∧ Yields middle tokens later := by
  constructor
  · rintro ⟨given, groups, accepts⟩
    cases groups with
    | separate rest =>
        cases accepts with
        | cons first others => exact ⟨_, first, _, rest, others⟩
  · rintro ⟨middle, first, given, rest, others⟩
    exact ⟨_, .separate rest, .cons first others⟩

/-- Where nothing is left to read, what is unfinished decides. -/
theorem settle_eq_ok_iff (terminated : Bool) :
    settle ⟨accepted, unfinished, terminated⟩ = .ok later ↔
      Yields accepted unfinished.tokens later := by
  cases unfinished with
  | nothing =>
      apply Iff.trans _ yields_nil_iff.symm
      exact ⟨Except.ok.inj, congrArg Except.ok⟩
  | awaiting setting =>
      refine iff_of_false (fun settled => by cases settled) ?_
      rintro ⟨given, groups, -⟩
      cases groups
  | unchecked setting value =>
      rw [Unfinished.tokens, yields_separate_iff]
      simp only [yields_nil_iff, exists_eq_right]
      rfl

/-- A token that is no value comes after the end of what is unfinished. -/
theorem yields_append_iff (noValue : forall value, token ≠ .plain value) :
    Yields accepted (unfinished.tokens ++ token :: tokens) later ↔
      exists middle, Yields accepted unfinished.tokens middle ∧
        Yields middle (token :: tokens) later := by
  cases unfinished with
  | nothing => simp only [Unfinished.tokens, List.nil_append, yields_nil_iff, exists_eq_left']
  | awaiting setting =>
      apply iff_of_false
      · rintro ⟨given, groups, -⟩
        cases groups
        exact noValue _ rfl
      · rintro ⟨middle, ⟨given, groups, -⟩, -⟩
        cases groups
  | unchecked setting value =>
      simp only [Unfinished.tokens, List.cons_append, List.nil_append, yields_separate_iff,
        yields_nil_iff, exists_eq_right]

theorem read_terminated_iff :
    read ⟨accepted, unfinished, true⟩ tokens = .ok later ↔
      tokens = [] ∧ Yields accepted unfinished.tokens later := by
  cases tokens with
  | nil =>
      rw [read_nil, settle_eq_ok_iff]
      exact (and_iff_right rfl).symm
  | cons token tokens =>
      rw [read_cons]
      refine iff_of_false (fun accepts => by cases accepts) ?_
      rintro ⟨impossible, -⟩
      cases impossible

/-- Reading fails at a token that begins no group and that no state can take. -/
theorem read_refused_iff (noValue : forall value, token ≠ .plain value)
    (noGroups : forall given, ¬ Groups given (token :: tokens))
    (noStep : forall next, step ⟨accepted, unfinished, false⟩ token ≠ .ok next) :
    read ⟨accepted, unfinished, false⟩ (token :: tokens) = .ok later ↔
      Yields accepted (unfinished.tokens ++ token :: tokens) later := by
  rw [yields_append_iff noValue, read_cons, bind_eq_ok_iff]
  apply iff_of_false
  · rintro ⟨next, stepped, -⟩
    exact noStep next stepped
  · rintro ⟨middle, -, given, groups, -⟩
    exact noGroups given groups

/-- Reading accepts what the groups give that are left if the unfinished tokens are put back. -/
theorem read_eq_ok_iff :
    read ⟨accepted, unfinished, false⟩ tokens = .ok later ↔
      Yields accepted (unfinished.tokens ++ tokens) later := by
  induction tokens generalizing accepted unfinished with
  | nil => rw [read_nil, settle_eq_ok_iff, List.append_nil]
  | cons token tokens ih =>
      cases token with
      | plain value =>
          cases unfinished with
          | awaiting setting => exact ih
          | nothing =>
              refine iff_of_false (fun accepts => by cases accepts) ?_
              rintro ⟨given, groups, -⟩
              cases groups
          | unchecked setting value' =>
              refine iff_of_false (fun accepts => by cases accepts) ?_
              rintro ⟨given, groups, -⟩
              cases groups with
              | separate rest => cases rest
      | terminator =>
          rw [yields_append_iff (fun _ impossible => by cases impossible)]
          simp only [yields_terminator_iff]
          apply read_terminated_iff.trans
          constructor
          · rintro ⟨empty, yields⟩
            exact ⟨later, yields, empty, rfl⟩
          · rintro ⟨middle, yields, empty, rfl⟩
            exact ⟨empty, yields⟩
      | complete setting value =>
          rw [yields_append_iff (fun _ impossible => by cases impossible), read_cons]
          simp only [yields_complete_iff, step, Bool.false_eq_true, if_false, bind_eq_ok_iff,
            settle_eq_ok_iff]
          constructor
          · rintro ⟨next, ⟨middle, yields, accepted, first, same⟩, rest⟩
            cases same
            exact ⟨middle, yields, accepted, first, ih.mp rest⟩
          · rintro ⟨middle, yields, accepted, first, rest⟩
            exact ⟨_, ⟨middle, yields, accepted, first, rfl⟩, ih.mpr rest⟩
      | opening setting =>
          rw [yields_append_iff (fun _ impossible => by cases impossible), read_cons]
          simp only [step, Bool.false_eq_true, if_false, bind_eq_ok_iff, settle_eq_ok_iff]
          constructor
          · rintro ⟨next, ⟨middle, yields, same⟩, rest⟩
            cases same
            exact ⟨middle, yields, ih.mp rest⟩
          · rintro ⟨middle, yields, rest⟩
            exact ⟨_, ⟨middle, yields, rfl⟩, ih.mpr rest⟩
      | help =>
          apply read_refused_iff (fun _ impossible => by cases impossible)
          · intro given groups
            cases groups
          · intro next stepped
            rcases bind_eq_ok_iff.mp stepped with ⟨settled, -, impossible⟩
            cases impossible
      | helpWithValue =>
          apply read_refused_iff (fun _ impossible => by cases impossible)
          · intro given groups
            cases groups
          · intro next stepped
            cases stepped
      | unknown =>
          apply read_refused_iff (fun _ impossible => by cases impossible)
          · intro given groups
            cases groups
          · intro next stepped
            cases stepped

/-! ## Options -/

/-- The option is not given. -/
def IsMissing (given : OptionValues) (setting : Setting) : Prop :=
  forall value, (setting, value) ∉ given

/-- No option is given twice, and all values are such as the options can have.  The value in the
environment only matters if it is used. -/
structure Admissible (given : OptionValues) (environment : Option Bytes) : Prop where
  once : (given.map Prod.fst).Nodup
  values : forall setting value, (setting, value) ∈ given -> setting.Admits value
  environment : IsMissing given .rule -> forall value, environment = some value ->
    Setting.rule.Admits value

/-- The options that the values ask for. -/
structure Asks (given : OptionValues) (environment : Option Bytes)
    (options : Options) : Prop where
  command : forall line, options.command = some line ↔ (.command, Utf8.encode line) ∈ given
  /-- An argument goes before the environment, and the environment before the default. -/
  rule : forall rule, options.rule = rule ↔ (.rule, Utf8.encode rule.name) ∈ given ∨
    IsMissing given .rule ∧
      (environment = some (Utf8.encode rule.name) ∨ environment = none ∧ rule = .replaceFinal)
  directory : forall path, options.directory = some path ↔ (.directory, path) ∈ given

variable {given : OptionValues} {environment : Option Bytes} {options : Options}

theorem Asks.unique {other : Options} (asks : Asks given environment options)
    (asks' : Asks given environment other) : options = other := by
  rcases options with ⟨command, rule, directory⟩
  rcases other with ⟨command', rule', directory'⟩
  have sameCommand : command = command' := by
    apply Option.ext
    intro line
    exact (asks.command line).trans (asks'.command line).symm
  have sameRule : rule = rule' := (asks.rule rule').mpr ((asks'.rule rule').mp rfl)
  have sameDirectory : directory = directory' := by
    apply Option.ext
    intro path
    exact (asks.directory path).trans (asks'.directory path).symm
  rw [sameCommand, sameRule, sameDirectory]

theorem isMissing_of_perm {given' : OptionValues} (perm : given.Perm given')
    {setting : Setting} : IsMissing given setting ↔ IsMissing given' setting :=
  forall_congr' fun _ => not_congr perm.mem_iff

theorem Admissible.perm {given' : OptionValues} (perm : given.Perm given')
    (admissible : Admissible given environment) : Admissible given' environment where
  once := (perm.map Prod.fst).nodup_iff.mp admissible.once
  values := fun setting value member => admissible.values setting value (perm.mem_iff.mpr member)
  environment := fun missing => admissible.environment ((isMissing_of_perm perm).mpr missing)

theorem Asks.perm {given' : OptionValues} (perm : given.Perm given')
    (asks : Asks given environment options) : Asks given' environment options where
  command := fun line => (asks.command line).trans perm.mem_iff
  rule := by
    intro rule
    rw [← isMissing_of_perm perm, ← perm.mem_iff]
    exact asks.rule rule
  directory := fun path => (asks.directory path).trans perm.mem_iff

theorem chooseRule_eq_ok_iff {chosen : Option PathRule} {rule : PathRule} :
    chooseRule chosen environment = .ok rule ↔ chosen = some rule ∨ chosen = none ∧
      (environment = some (Utf8.encode rule.name) ∨ environment = none ∧ rule = .replaceFinal) := by
  cases chosen with
  | some chosen =>
      simp only [chooseRule, Except.ok.injEq, Option.some.injEq, reduceCtorEq, false_and, or_false]
  | none =>
      cases environment with
      | some value =>
          simp only [chooseRule, ruleOf_eq_ok_iff, Option.some.injEq, reduceCtorEq, false_and,
            or_false, true_and, false_or]
      | none =>
          simp only [chooseRule, Except.ok.injEq, reduceCtorEq, true_and, false_or, eq_comm]

theorem parse_eq_ok_iff_read {arguments : List Bytes} :
    parse arguments environment = .ok options ↔
      exists accepted, read {} (arguments.map ofArgument) = .ok accepted ∧
        exists rule, chooseRule accepted.rule environment = .ok rule ∧
          options = ⟨accepted.command, rule, accepted.directory⟩ := by
  have inOneGo : parse arguments environment =
      read {} (arguments.map ofArgument) >>= fun accepted =>
        chooseRule accepted.rule environment >>= fun rule =>
          .ok ⟨accepted.command, rule, accepted.directory⟩ :=
    (bind_assoc _ _ _).symm
  simp only [inOneGo, bind_eq_ok_iff, Except.ok.injEq, eq_comm (b := options)]

namespace Accepts

variable (accepts : Accepts {} given accepted)

include accepts

theorem value?_eq_some_iff_mem {setting : Setting} {value : Bytes} :
    accepted.value? setting = some value ↔ (setting, value) ∈ given := by
  apply accepts.value?_eq_some_iff.trans
  apply or_iff_left
  cases setting <;> exact fun impossible => by cases impossible

theorem command_eq_some_iff {line : Text} :
    accepted.command = some line ↔ (.command, Utf8.encode line) ∈ given := by
  rw [← accepts.value?_eq_some_iff_mem, Accepted.value?, Option.map_eq_some_iff]
  simp only [Utf8.encode_inj, exists_eq_right]

theorem rule_eq_some_iff {rule : PathRule} :
    accepted.rule = some rule ↔ (.rule, Utf8.encode rule.name) ∈ given := by
  rw [← accepts.value?_eq_some_iff_mem, Accepted.value?, Option.map_eq_some_iff]
  simp only [PathRule.encode_name_inj, exists_eq_right]

theorem rule_eq_none_iff : accepted.rule = none ↔ IsMissing given .rule := by
  have unset : accepted.value? .rule = none ↔ accepted.rule = none := Option.map_eq_none_iff
  rw [← unset, Option.eq_none_iff_forall_ne_some]
  exact forall_congr' fun _ => not_congr accepts.value?_eq_some_iff_mem

theorem directory_eq_some_iff {path : Path} :
    accepted.directory = some path ↔ (.directory, path) ∈ given :=
  @value?_eq_some_iff_mem _ _ accepts .directory path

theorem asks {rule : PathRule} (chosen : chooseRule accepted.rule environment = .ok rule) :
    Asks given environment ⟨accepted.command, rule, accepted.directory⟩ where
  command := fun _ => accepts.command_eq_some_iff
  rule := by
    intro other
    rw [← accepts.rule_eq_some_iff, ← accepts.rule_eq_none_iff, ← chooseRule_eq_ok_iff, chosen,
      Except.ok.injEq]
  directory := fun _ => accepts.directory_eq_some_iff

theorem admissible {rule : PathRule} (chosen : chooseRule accepted.rule environment = .ok rule) :
    Admissible given environment := by
  rcases exists_accepts_iff.mp ⟨accepted, accepts⟩ with ⟨once, each⟩
  refine ⟨once, fun setting value member => (each setting value member).2, ?_⟩
  rintro missing value rfl
  rcases chooseRule_eq_ok_iff.mp chosen with given | ⟨-, same | ⟨impossible, -⟩⟩
  · rw [accepts.rule_eq_none_iff.mpr missing] at given
    cases given
  · exact ⟨rule, Option.some.inj same⟩
  · cases impossible

theorem exists_chooseRule (admissible : Admissible given environment) :
    exists rule, chooseRule accepted.rule environment = .ok rule := by
  cases chosen : accepted.rule with
  | some rule => exact ⟨rule, rfl⟩
  | none =>
      cases held : environment with
      | none => exact ⟨.replaceFinal, rfl⟩
      | some value =>
          have missing := accepts.rule_eq_none_iff.mp chosen
          rcases admissible.environment missing value held with ⟨rule, same⟩
          exact ⟨rule, ruleOf_eq_ok_iff.mpr same⟩

end Accepts

/-- Values that may be given together are accepted, however they are spelled. -/
theorem exists_parse_eq_ok {arguments : List Bytes} (spells : Spells given arguments)
    (admissible : Admissible given environment) :
    exists options, parse arguments environment = .ok options ∧
      Asks given environment options := by
  have all : exists accepted, Accepts {} given accepted := by
    apply exists_accepts_iff.mpr
    refine ⟨admissible.once, ?_⟩
    intro setting value member
    refine ⟨?_, admissible.values setting value member⟩
    cases setting <;> rfl
  rcases all with ⟨accepted, accepts⟩
  rcases accepts.exists_chooseRule admissible with ⟨rule, chosen⟩
  have reads : read {} (arguments.map ofArgument) = .ok accepted :=
    read_eq_ok_iff.mpr ⟨given, groups_of_spells spells, accepts⟩
  exact ⟨_, parse_eq_ok_iff_read.mpr ⟨accepted, reads, rule, chosen, rfl⟩, accepts.asks chosen⟩

/-- The options are those of some values that the arguments spell and that may be given
together. -/
theorem parse_eq_ok_iff {arguments : List Bytes} :
    parse arguments environment = .ok options ↔ exists given, Spells given arguments ∧
      Admissible given environment ∧ Asks given environment options := by
  constructor
  · intro parsed
    rcases parse_eq_ok_iff_read.mp parsed with ⟨accepted, reads, rule, chosen, rfl⟩
    rcases read_eq_ok_iff.mp reads with ⟨given, groups, accepts⟩
    exact ⟨given, spells_of_groups groups, accepts.admissible chosen, accepts.asks chosen⟩
  · rintro ⟨given, spells, admissible, asks⟩
    rcases exists_parse_eq_ok spells admissible with ⟨found, parsed, asksFound⟩
    rw [asks.unique asksFound]
    exact parsed

theorem directory_session (options : Options) (current : Path) :
    (options.session current).scope = Variables.tracking (options.directory.getD current) :=
  rfl

/-- Which arguments are accepted, and what they mean.  They are accepted exactly if they spell
options with values, each option at most once, and every value is one that its option can have.
The value in the environment counts only if no rule is given.  The options and the directory
in which a session begins are then those of the values, and so any arguments are accepted as
the same options that spell these values in any order and in any way. -/
theorem accepts_grammar (arguments : List Bytes) (environment : Option Bytes) :
    ((exists options, parse arguments environment = .ok options) ↔
      exists given, Spells given arguments ∧ Admissible given environment) ∧
    forall given options, Spells given arguments ->
      parse arguments environment = .ok options ->
        Asks given environment options ∧
        (forall current directory,
          (.directory, directory) ∈ given ∨
              IsMissing given .directory ∧ directory = current ->
            (options.session current).scope = Variables.tracking directory) ∧
        forall given' arguments', given.Perm given' -> Spells given' arguments' ->
          parse arguments' environment = .ok options := by
  have determined : forall given options, Spells given arguments ->
      parse arguments environment = .ok options ->
        Admissible given environment ∧ Asks given environment options := by
    intro given options spells accepted
    rcases parse_eq_ok_iff.mp accepted with ⟨found, spellsFound, known⟩
    rw [Groups.unique (groups_of_spells spells) (groups_of_spells spellsFound)]
    exact known
  refine ⟨⟨?_, ?_⟩, ?_⟩
  · rintro ⟨options, accepted⟩
    rcases parse_eq_ok_iff.mp accepted with ⟨given, spells, admissible, -⟩
    exact ⟨given, spells, admissible⟩
  · rintro ⟨given, spells, admissible⟩
    rcases exists_parse_eq_ok spells admissible with ⟨options, accepted, -⟩
    exact ⟨options, accepted⟩
  · intro given options spells accepted
    rcases determined given options spells accepted with ⟨admissible, asks⟩
    refine ⟨asks, ?_, ?_⟩
    · rintro current directory (member | ⟨missing, rfl⟩)
      · rw [directory_session, (asks.directory directory).mpr member]
        rfl
      · have none : options.directory = none := by
          apply Option.eq_none_iff_forall_ne_some.mpr
          intro path same
          exact missing path ((asks.directory path).mp same)
        rw [directory_session, none]
        rfl
    · intro given' arguments' perm spells'
      exact parse_eq_ok_iff.mpr ⟨given', spells', admissible.perm perm, asks.perm perm⟩

/-- The same values in another order, each of them spelled otherwise, and a value in the
environment that would not do. -/
theorem accepts_grammar_reordered :
    let arguments := ["--path-rule", "append", "-cecho é", "--"].map fun argument : String =>
      Utf8.encode argument.toList
    let arguments' := ["-c", "echo é", "--path-rule=append"].map fun argument : String =>
      Utf8.encode argument.toList
    let environment := some (Utf8.encode "neither".toList)
    exists options, parse arguments environment = .ok options ∧
      parse arguments' environment = .ok options ∧
      options.command = some "echo é".toList ∧ options.rule = .append ∧
      (options.session []).scope = Variables.tracking [] := by
  intro arguments arguments' environment
  let rule : Setting × Bytes := (.rule, Utf8.encode PathRule.append.name)
  let command : Setting × Bytes := (.command, Utf8.encode "echo é".toList)
  have separateRule : IsUndashed (Utf8.encode PathRule.append.name) := fun dashed => by
    cases dashed
  have separateCommand : IsUndashed (Utf8.encode "echo é".toList) := fun dashed => by
    cases dashed
  have attached : Setting.command.Spelling (Utf8.encode "echo é".toList)
      [Utf8.encode "-cecho é".toList] := .attached (by decide) (by decide)
  have spells : Spells [rule, command] arguments :=
    .cons (.separate separateRule) (.cons attached .terminated)
  have spells' : Spells [command, rule] arguments' :=
    .cons (.separate separateCommand) (.cons .joined .nil)
  have admissible : Admissible [rule, command] environment := by
    refine ⟨by decide, ?_, fun missing => absurd List.mem_cons_self (missing _)⟩
    intro setting value member
    simp only [List.mem_cons, List.not_mem_nil, or_false] at member
    rcases member with same | same
    · rcases Prod.mk.inj same with ⟨rfl, rfl⟩
      exact ⟨.append, rfl⟩
    · rcases Prod.mk.inj same with ⟨rfl, rfl⟩
      exact ⟨"echo é".toList, rfl⟩
  rcases accepts_grammar arguments environment with ⟨accepts, means⟩
  rcases accepts.mpr ⟨_, spells, admissible⟩ with ⟨options, parsed⟩
  rcases means _ options spells parsed with ⟨asks, begins, sameOptions⟩
  have perm : [rule, command].Perm [command, rule] := List.Perm.swap command rule []
  have missing : IsMissing [rule, command] .directory := by
    intro value member
    simp only [List.mem_cons, List.not_mem_nil, or_false] at member
    rcases member with same | same <;> cases (Prod.mk.inj same).1
  exact ⟨options, parsed, sameOptions _ _ perm spells',
    (asks.command _).mpr (List.mem_cons_of_mem rule List.mem_cons_self),
    (asks.rule .append).mpr (.inl List.mem_cons_self), begins [] [] (.inr ⟨missing, rfl⟩)⟩

end Options
end MiniShell
