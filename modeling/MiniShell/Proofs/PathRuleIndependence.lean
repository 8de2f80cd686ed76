import MiniShell.Program
import MiniShell.Proofs.Rendering
import MiniShell.Proofs.SessionVariables

namespace MiniShell

/-!
# The path rule makes no difference in a session

The two rules disagree about a tracked path that does not end in a slash.  The
variable that a session keeps is a directory marker, and no line changes it, so
within a session both rules join the argument to the marker.

The comparison of two sessions is stated as an equation: a session with another
rule carries out a line as the session itself does, and what it becomes differs
in the rule alone.  The same equation then passes to any number of lines, and to
the turns by which a shell takes its lines from the input.
-/

/-! ## Candidates below a directory marker -/

theorem Path.endsInSlash_encode {text : Text} (ends : text.getLast? = some '/') :
    endsInSlash (Utf8.encode text) = true := by
  rcases List.getLast?_eq_some_iff.mp ends with ⟨front, same⟩
  have slashed : Utf8.encode text = Utf8.encode front ++ [slash] := by
    rw [same, Utf8.encode_append]
    rfl
  rw [endsInSlash, slashed, List.getLast?_concat]
  rfl

namespace PathRule

theorem candidate_eq_join (rule : PathRule) {directory : Path}
    (ends : Path.endsInSlash directory = true) (argument : Path) :
    rule.candidate directory argument = Path.join directory argument := by
  cases rule with
  | append => rfl
  | replaceFinal => rw [candidate, ends, Bool.or_true, if_pos rfl]

theorem places_eq (first second : PathRule) {marker : Text}
    (ends : marker.getLast? = some '/') (argument : Text) :
    first.places marker argument = second.places marker argument := by
  have slashed := Path.endsInSlash_encode ends
  rw [places, places, first.candidate_eq_join slashed, second.candidate_eq_join slashed]

end PathRule

/-! ## One line -/

namespace Concatenation

theorem readArgument_eq (first second : PathRule) (files : FileView) {marker : Text}
    (ends : marker.getLast? = some '/') :
    readArgument first files marker = readArgument second files marker := by
  funext argument
  rw [readArgument, readArgument, Lookup.ofArgument, Lookup.ofArgument,
    first.places_eq second ends]

/-- Below a directory marker concatenation does not depend on the rule. -/
theorem run_command_eq (first second : PathRule) (files : FileView) (arguments : List Text)
    {scope : Variables} {marker : Text} (tracked : scope.directory = .ok marker)
    (ends : marker.getLast? = some '/') :
    (command first files).run arguments scope = (command second files).run arguments scope := by
  have same : concatenate first files arguments scope =
      concatenate second files arguments scope := by
    funext streams
    have lifted : StreamM.lift scope.directory streams = .ok marker streams := by
      rw [tracked]
      rfl
    rw [concatenate, concatenate, StreamM.bind_of_ok lifted, StreamM.bind_of_ok lifted,
      tally, tally, readArgument_eq first second files ends]
  simp only [command, same]

end Concatenation

namespace Builtin

/-- The commands other than concatenation, which have nothing to do with the rule. -/
def plain : Registry where
  commands := [echo, pwd, type, exit]

theorem find?_registry (rule : PathRule) (files : FileView) (name : Text) :
    (registry rule files).find? name =
      if Concatenation.name == name then some (Concatenation.command rule files)
      else plain.find? name := by
  change List.find? _ (Concatenation.command rule files :: plain.commands) = _
  rw [List.find?_cons]
  change (match Concatenation.name == name with
    | true => some (Concatenation.command rule files)
    | false => plain.find? name) = _
  cases Concatenation.name == name <;> rfl

/-- The rule and the files only matter to a line that concatenates. -/
theorem handle_registry_congr {first second : PathRule} {files other : FileView} {line : Text}
    {scope : Variables}
    (same : forall arguments, Words.split line = some (Concatenation.name :: arguments) ->
      (Concatenation.command first files).run arguments scope =
        (Concatenation.command second other).run arguments scope) :
    (registry first files).handle line scope = (registry second other).handle line scope := by
  apply Registry.handle_congr
  · intro name arguments _
    rw [Registry.exitCode?, Registry.exitCode?, find?_registry, find?_registry]
    cases Concatenation.name == name <;> rfl
  · intro name arguments words
    rw [Registry.run?, Registry.run?, find?_registry, find?_registry]
    cases called : Concatenation.name == name with
    | true =>
        rw [← beq_iff_eq.mp called] at words
        exact congrArg some (same arguments words)
    | false => rfl

end Builtin

/-! ## A session with another rule -/

namespace Session

def withRule (session : Session) (rule : PathRule) : Session :=
  { session with rule := rule }

def Round.withRule (round : Round) (rule : PathRule) : Round :=
  { round with session := round.session.withRule rule }

/-- What can be seen of a round: what came of the line, the streams, and the variables. -/
def Round.seen (round : Round) : Except ShellError Flow × Streams × Variables :=
  (round.result, round.streams, round.session.scope)

variable {marker : Text} {last : Option Int}

theorem execute_withRule (session : Session) (holds : session.scope.Holds marker last)
    (ends : marker.getLast? = some '/') (rule : PathRule) (files : FileView) (line : Text)
    (streams : Streams) :
    (session.withRule rule).execute files line streams =
      (session.execute files line streams).withRule rule := by
  have same : (session.withRule rule).attempt files line = session.attempt files line := by
    rw [attempt, attempt]
    exact congrArg (fun handled => recover handled >>= fun flow =>
        StreamM.flushError >>= fun _ => pure flow)
      (Builtin.handle_registry_congr fun arguments _ =>
        Concatenation.run_command_eq rule session.rule files arguments holds.directory_eq ends)
  rw [execute, execute, same]
  split <;> rfl

theorem rounds_withRule (session : Session) (holds : session.scope.Holds marker last)
    (ends : marker.getLast? = some '/') (rule : PathRule) (steps : List Step) :
    (session.withRule rule).rounds steps =
      (session.rounds steps).map fun round => round.withRule rule := by
  induction steps generalizing session last with
  | nil => rfl
  | cons step steps ih =>
      have now := execute_withRule session holds ends rule step.files step.line step.streams
      have later := ih _ (holds_execute holds step.files step.line step.streams)
      rw [rounds, rounds, List.map_cons, round, now]
      exact congrArg (List.cons _) later

end Session

/-! ## A shell that takes its lines from the input -/

namespace Interaction

def withRule (interaction : Interaction) (rule : PathRule) : Interaction :=
  { interaction with session := interaction.session.withRule rule }

def Turn.withRule (rule : PathRule) : Turn -> Turn
  | .go interaction => .go (interaction.withRule rule)
  | .stop ending streams => .stop ending streams

variable {marker : Text} {last : Option Int} {interaction : Interaction}

theorem turn_withRule (holds : interaction.session.scope.Holds marker last)
    (ends : marker.getLast? = some '/') (rule : PathRule) (files : FileView) :
    turn files (interaction.withRule rule) = (turn files interaction).withRule rule := by
  have same := fun line streams =>
    Session.execute_withRule _ holds ends rule files line streams
  unfold turn
  dsimp only [withRule]
  split
  · rfl
  · rfl
  · split
    · rfl
    · split
      · rfl
      · rw [same]
        dsimp only [Session.Round.withRule]
        split <;> rfl

theorem holds_of_turn_eq_go (holds : interaction.session.scope.Holds marker last)
    {files : FileView} {next : Interaction} (went : turn files interaction = .go next) :
    exists status, next.session.scope.Holds marker status := by
  rcases execute_of_turn_eq_go went with
    ⟨byte, bytes, input, line, round, _, _, executed, _, same⟩
  have holdsRound := Session.holds_execute holds files line
    { interaction.streams with input := input }
  rw [executed] at holdsRound
  rw [same]
  exact ⟨_, holdsRound⟩

theorem run_withRule (interaction : Interaction)
    (holds : interaction.session.scope.Holds marker last) (ends : marker.getLast? = some '/')
    (rule : PathRule) (files : FileView) :
    run files (interaction.withRule rule) = run files interaction := by
  induction interaction using run.induct files generalizing last with
  | case1 interaction ending streams stopped =>
      have same := turn_withRule holds ends rule files
      rw [stopped] at same
      rw [run_of_stop stopped]
      exact run_of_stop same
  | case2 interaction next went ih =>
      have same := turn_withRule holds ends rule files
      rw [went] at same
      rcases holds_of_turn_eq_go holds went with ⟨status, holdsNext⟩
      rw [run_of_go went, ← ih holdsNext]
      exact run_of_go same

end Interaction

/-! ## The whole program -/

namespace Options

/-- The rule has no part in whether a session begins and where. -/
theorem session?_withRule (options : Options) (rule : PathRule) (current : Except Fault Path) :
    ({ options with rule := rule } : Options).session? current =
      (options.session? current).map fun session => session.withRule rule := by
  rcases options with ⟨command, _, directory⟩
  cases directory <;> cases current <;> rfl

end Options

namespace Program

theorem runLine_withRule {marker : Text} {last : Option Int} (session : Session)
    (holds : session.scope.Holds marker last) (ends : marker.getLast? = some '/')
    (rule : PathRule) (files : FileView) (line : Text) (streams : Streams) :
    runLine files (session.withRule rule) line streams = runLine files session line streams := by
  rw [runLine, runLine, Session.execute_withRule session holds ends]
  rfl

theorem run_eq_of_options {surroundings : Surroundings} {arguments : List Bytes}
    {environment : Option Bytes} {options : Options} (rule : PathRule)
    (given : Options.parse surroundings.arguments surroundings.environment = .ok options)
    (changed : Options.parse arguments environment = .ok { options with rule := rule }) :
    run { surroundings with arguments := arguments, environment := environment } =
      run surroundings := by
  unfold run
  rw [given]
  dsimp only
  rw [changed]
  dsimp only
  have same : ({ options with rule := rule } : Options).session? surroundings.directory =
      (options.session? surroundings.directory).map fun session => session.withRule rule :=
    options.session?_withRule rule surroundings.directory
  rw [same]
  cases begins : options.session? surroundings.directory with
  | error error => rfl
  | ok session =>
      rcases Options.exists_start_of_session? begins with ⟨directory, begun⟩
      subst begun
      have holds := Variables.holds_tracking directory
      have ends := Variables.getLast?_directoryMarker directory
      have line := fun line streams => runLine_withRule (.start options.rule directory) holds ends
        rule surroundings.files line streams
      have lines := fun streams => Interaction.run_withRule
        ⟨.start options.rule directory, 0, streams⟩ holds ends rule surroundings.files
      dsimp only [Except.map]
      cases options.command with
      | none => exact congrArg report (lines _)
      | some command => exact congrArg report (line command _)

end Program

/-- Two sessions in the same directory that differ in their path rule cannot be told apart:
not by any lines over any files and streams, not by a single line that is carried out and not
by lines that are taken from the input.  Nor can two processes whose options differ in the
rule alone, wherever each of them has its rule from. -/
theorem rule_is_unobservable (first second : PathRule) (directory : Path) :
    (forall steps,
      ((Session.start first directory).rounds steps).map Session.Round.seen =
        ((Session.start second directory).rounds steps).map Session.Round.seen) ∧
    (forall files line streams,
      Program.runLine files (Session.start first directory) line streams =
        Program.runLine files (Session.start second directory) line streams) ∧
    (forall files status streams,
      Interaction.run files ⟨Session.start first directory, status, streams⟩ =
        Interaction.run files ⟨Session.start second directory, status, streams⟩) ∧
    (forall surroundings arguments environment options,
      Options.parse surroundings.arguments surroundings.environment = .ok options ->
      Options.parse arguments environment = .ok { options with rule := second } ->
      Program.run { surroundings with arguments := arguments, environment := environment } =
        Program.run surroundings) := by
  have holds := Variables.holds_tracking directory
  have ends := Variables.getLast?_directoryMarker directory
  refine ⟨?_, ?_, ?_, ?_⟩
  · intro steps
    have same : (Session.start second directory).rounds steps = _ :=
      (Session.start first directory).rounds_withRule holds ends second steps
    rw [same, List.map_map]
    rfl
  · intro files line streams
    exact (Program.runLine_withRule (Session.start first directory) holds ends second
      files line streams).symm
  · intro files status streams
    exact (Interaction.run_withRule ⟨Session.start first directory, status, streams⟩ holds
      ends second files).symm
  · intro surroundings arguments environment options given changed
    exact Program.run_eq_of_options second given changed

/-- A process that is told one rule by an option, and one that is told the other rule by its
environment. -/
theorem run_under_either_rule :
    Program.run ⟨["--path-rule".toList, "append".toList].map Utf8.encode, none,
        Utf8.encode "/w".toList, .ofRecords [], Utf8.encode "cat a\n".toList⟩ =
      Program.run ⟨[], some (Utf8.encode "replace-final".toList),
        Utf8.encode "/w".toList, .ofRecords [], Utf8.encode "cat a\n".toList⟩ :=
  (rule_is_unobservable .replaceFinal .append []).2.2.2
    ⟨[], some (Utf8.encode "replace-final".toList), Utf8.encode "/w".toList, .ofRecords [],
      Utf8.encode "cat a\n".toList⟩
    _ _ ⟨none, .replaceFinal, none⟩ (by rfl) (by rfl)

end MiniShell
