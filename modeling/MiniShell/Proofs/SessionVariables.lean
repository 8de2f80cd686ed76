import MiniShell.Proofs.Streams
import MiniShell.Session
import Mathlib.Data.List.Induction

namespace MiniShell

/-!
# The variables of a session

A session is carried through any number of lines, each with files, input and
sinks of its own.  It goes on after a line that asks for the end and after a
line whose error could not be shown.  Whatever has happened, its variables are
described by two things: the marker of the directory that it tracks, which
never changes, and the status of the last line after which the shell went on.

The description holds of a new session, and `execute` either records a status
or leaves the variables alone.  Because the tracked directory is therefore
always defined, no command can fail for want of a variable.
-/

open StreamM

/-! ## The errors of commands -/

/-- The error is not that a variable has no value. -/
def ShellError.IsNotUndefined (error : ShellError) : Prop :=
  forall name, error ≠ .undefinedVariable name

theorem ShellError.isNotUndefined_io (fault : Fault) : (ShellError.io fault).IsNotUndefined := by
  intro name impossible
  cases impossible

theorem Concatenation.failsOnly_copyLines :
    FailsOnly ShellError.IsNotUndefined Concatenation.copyLines := by
  intro streams error after failed
  induction streams using Concatenation.copyLines.induct with
  | case1 streams fault input read =>
      rw [Concatenation.copyLines, read] at failed
      cases failed
      exact ShellError.isNotUndefined_io fault
  | case2 streams input read =>
      rw [Concatenation.copyLines, read] at failed
      cases failed
  | case3 streams byte line input read output written ih =>
      rw [Concatenation.copyLines, read] at failed
      simp only [written] at failed
      exact ih failed
  | case4 streams byte line input read fault output written =>
      rw [Concatenation.copyLines, read] at failed
      simp only [written] at failed
      cases failed
      exact ShellError.isNotUndefined_io fault

/-- With a tracked directory no step of a command fails for want of a variable. -/
theorem StreamM.compositional_failsOnly {scope : Variables} {directory : Text}
    (tracked : scope.directory = .ok directory) :
    Compositional scope (FailsOnly ShellError.IsNotUndefined) where
  value := .pure
  sequence := .bind
  directory := by
    rw [tracked]
    exact .lift_ok directory
  write := .write ShellError.isNotUndefined_io
  flush := .flush ShellError.isNotUndefined_io
  copyLines := Concatenation.failsOnly_copyLines
  fatal := fun _ => .throw fun _ impossible => by cases impossible
  invalidQuoting := .throw fun _ impossible => by cases impossible
  commandNotFound := fun _ => .throw fun _ impossible => by cases impossible

/-! ## Variables with a marker and a status -/

namespace Variables

theorem getLast?_directoryMarker (path : Path) :
    (directoryMarker path).getLast? = some '/' := by
  unfold directoryMarker
  dsimp only
  split
  · next ends => exact ends
  · exact List.getLast?_concat

/-- The variables that a session can have: a directory marker, the status of the last line if
there has been one, and nothing else. -/
structure Holds (marker : Text) (status : Option Int) (scope : Variables) : Prop where
  directory : scope.get? directoryName = some marker
  status : scope.get? statusName = status.map Decimal.ofInt
  others : forall name, name ≠ directoryName -> name ≠ statusName -> scope.get? name = none

theorem directoryName_ne_statusName : directoryName ≠ statusName := by
  decide

theorem directory_setStatus (scope : Variables) (status : Int) :
    (scope.setStatus status).directory = scope.directory := by
  rw [directory, get, setStatus, get?_set_of_ne _ _ directoryName_ne_statusName]
  rfl

theorem holds_tracking (path : Path) :
    Holds (directoryMarker path) none (tracking path) := by
  constructor
  · exact get?_set_self _ _ _
  · exact get?_set_of_ne _ _ directoryName_ne_statusName.symm
  · intro name notDirectory notStatus
    exact get?_set_of_ne _ _ notDirectory

namespace Holds

variable {marker : Text} {last : Option Int} {scope : Variables}

theorem setStatus (holds : Holds marker last scope) (status : Int) :
    Holds marker (some status) (scope.setStatus status) := by
  constructor
  · rw [Variables.setStatus, get?_set_of_ne _ _ directoryName_ne_statusName]
    exact holds.directory
  · exact get?_set_self _ _ _
  · intro name notDirectory notStatus
    rw [Variables.setStatus, get?_set_of_ne _ _ notStatus]
    exact holds.others name notDirectory notStatus

theorem directory_eq (holds : Holds marker last scope) : scope.directory = .ok marker := by
  rw [Variables.directory, get, holds.directory]

end Holds
end Variables

/-! ## One line -/

namespace Session

/-- The status that a round leaves in the variables, if it leaves one. -/
def Round.status? (round : Round) : Option Int :=
  match round.result with
  | .ok (.next status) => some status
  | _ => none

/-- A line either leaves a status in the variables or leaves the session as it was. -/
theorem session_execute (session : Session) (files : FileView) (line : Text)
    (streams : Streams) :
    (session.execute files line streams).session =
      match (session.execute files line streams).status? with
      | some status => { session with scope := session.scope.setStatus status }
      | none => session := by
  unfold execute
  split <;> rfl

/-- What a session does with its lines depends on this and on nothing else. -/
def setting (session : Session) : PathRule × Except ShellError Text :=
  (session.rule, session.scope.directory)

theorem setting_execute (session : Session) (files : FileView) (line : Text) (streams : Streams) :
    (session.execute files line streams).session.setting = session.setting := by
  rw [session_execute]
  cases (session.execute files line streams).status? with
  | none => rfl
  | some status => exact congrArg (Prod.mk _) (Variables.directory_setStatus _ status)

theorem holds_execute {marker : Text} {last : Option Int} {session : Session}
    (holds : session.scope.Holds marker last) (files : FileView) (line : Text)
    (streams : Streams) :
    (session.execute files line streams).session.scope.Holds marker
      ((session.execute files line streams).status?.or last) := by
  rw [session_execute]
  cases (session.execute files line streams).status? with
  | none => exact holds
  | some status => exact holds.setStatus status

/-- Showing an error can only fail because of the error stream. -/
theorem failsOnly_recover (run : StreamM Flow) :
    FailsOnly ShellError.IsNotUndefined (recover run) := by
  intro streams error after failed
  unfold recover at failed
  split at failed
  · cases failed
  · next earlier middle result =>
      have shown : FailsOnly ShellError.IsNotUndefined
          (writeError (Utf8.encode earlier.presentation) >>= fun _ =>
            (pure (.next 1) : StreamM Flow)) :=
        .bind (.write ShellError.isNotUndefined_io .error _) fun _ => .pure _
      exact shown middle error after failed

theorem isNotUndefined_of_execute {marker : Text} {last : Option Int} {session : Session}
    (holds : session.scope.Holds marker last) {files : FileView} {line : Text}
    {streams : Streams} {error : ShellError}
    (failed : (session.execute files line streams).result = .error error) :
    error.IsNotUndefined := by
  have steps := compositional_failsOnly holds.directory_eq
  have attempts : FailsOnly ShellError.IsNotUndefined (session.attempt files line) :=
    session.attempt_of_compositional steps (fun _ => failsOnly_recover _) files line
  unfold execute at failed
  split at failed
  · cases failed
  · cases failed
  · next other after attempted =>
      cases failed
      exact attempts streams _ after attempted

/-! ## Any number of lines -/

/-- What one line is carried out on.  Nothing of it is kept for the next line. -/
structure Step where
  files : FileView
  line : Text
  streams : Streams

def round (session : Session) (step : Step) : Round :=
  session.execute step.files step.line step.streams

/-- The rounds of a sequence of steps.  Every step is carried out, whatever came of the
steps before it. -/
def rounds (session : Session) : List Step -> List Round
  | [] => []
  | step :: steps => session.round step :: (session.round step).session.rounds steps

def after (session : Session) (steps : List Step) : Session :=
  steps.foldl (fun session step => (session.round step).session) session

/-- The status of the last round after which the shell went on. -/
def lastStatus? (rounds : List Round) : Option Int :=
  rounds.reverse.findSome? Round.status?

theorem after_concat (session : Session) (steps : List Step) (step : Step) :
    session.after (steps ++ [step]) = ((session.after steps).round step).session := by
  rw [after, List.foldl_append]
  rfl

theorem rounds_concat (session : Session) (steps : List Step) (step : Step) :
    session.rounds (steps ++ [step]) =
      session.rounds steps ++ [(session.after steps).round step] := by
  induction steps generalizing session with
  | nil => rfl
  | cons first steps ih =>
      rw [List.cons_append, rounds, ih, rounds]
      rfl

theorem lastStatus?_concat (rounds : List Round) (round : Round) :
    lastStatus? (rounds ++ [round]) = round.status?.or (lastStatus? rounds) := by
  rw [lastStatus?, List.reverse_append, List.reverse_singleton, List.singleton_append,
    List.findSome?_cons]
  cases round.status? <;> rfl

theorem lastStatus?_cons (round : Round) (rounds : List Round) :
    lastStatus? (round :: rounds) = (lastStatus? rounds).or round.status? := by
  rw [lastStatus?, List.reverse_cons, List.findSome?_append, List.findSome?_singleton]
  rfl

/-- The variables after any number of lines. -/
theorem holds_after (rule : PathRule) (directory : Path) (steps : List Step) :
    ((start rule directory).after steps).scope.Holds (Variables.directoryMarker directory)
      (lastStatus? ((start rule directory).rounds steps)) := by
  induction steps using List.reverseRecOn with
  | nil => exact Variables.holds_tracking directory
  | append_singleton steps step ih =>
      rw [after_concat, rounds_concat, lastStatus?_concat]
      exact holds_execute ih step.files step.line step.streams

/-- The variables of a session after any lines, over any files and streams, and what one more
line can do.  The tracked directory is the one of the new session, the status is that of the
last line after which the shell went on, and there are no other variables.  A line after
which the shell does not go on changes nothing, and no line fails for want of a variable,
neither when it is carried out nor when its error is shown. -/
theorem variables_after_run (rule : PathRule) (directory : Path) (steps : List Step) :
    let begun := start rule directory
    let reached := begun.after steps
    (exists marker, marker.getLast? = some '/' ∧
      begun.scope.get? "PWD".toList = some marker ∧
      reached.scope.get? "PWD".toList = some marker) ∧
    (forall name, name ≠ "PWD".toList -> name ≠ "?".toList ->
      reached.scope.get? name = none) ∧
    reached.scope.get? "?".toList =
      (lastStatus? (begun.rounds steps)).map Decimal.ofInt ∧
    forall step,
      ((forall status, (reached.round step).result ≠ .ok (.next status)) ->
        (reached.round step).session.scope = reached.scope) ∧
      (forall name, (reached.round step).result ≠ .error (.undefinedVariable name)) ∧
      (forall name after,
        (reached.registry step.files).handle step.line reached.scope step.streams ≠
          .error (.undefinedVariable name) after) := by
  intro begun reached
  have holds := holds_after rule directory steps
  have fails := compositional_failsOnly holds.directory_eq
  refine ⟨⟨Variables.directoryMarker directory, Variables.getLast?_directoryMarker directory,
    (Variables.holds_tracking directory).directory, holds.directory⟩, holds.others,
    holds.status, ?_⟩
  intro step
  refine ⟨?_, ?_, ?_⟩
  · intro notNext
    have noStatus : (reached.round step).status? = none := by
      unfold Round.status?
      split
      · next status result => exact absurd result (notNext status)
      · rfl
    have kept := session_execute reached step.files step.line step.streams
    rw [round] at noStatus
    rw [noStatus] at kept
    exact congrArg Session.scope kept
  · intro name failed
    exact isNotUndefined_of_execute holds failed name rfl
  · intro name after failed
    exact fails.handle_registry reached.rule step.files step.line _ _ after failed name rfl

end Session
end MiniShell
