import MiniShell.Command.Consumption

namespace MiniShell

/-!
# Sessions

A session carries out one line after the other.  It owns the variables, and
they are the whole of its memory: commands see them and do not change them.
No error of a command ends a session.  It is shown on the error stream and
counts as status one.  Only a failure of the error stream itself, on which
nothing could be shown, is passed on.
-/

/-- The state of a shell between two lines. -/
structure Session where
  rule : PathRule
  scope : Variables
  deriving DecidableEq, Repr

namespace Session

open StreamM

/-- A session in which no line has been carried out. -/
def start (rule : PathRule) (directory : Path) : Session where
  rule := rule
  scope := Variables.tracking directory

def registry (session : Session) (files : FileView) : Registry :=
  Builtin.registry session.rule files

/-- Show the error of a computation and go on. -/
def recover (run : StreamM Flow) : StreamM Flow := fun streams =>
  match run streams with
  | .ok flow streams => .ok flow streams
  | .error error streams =>
      (writeError (Utf8.encode error.presentation) >>= fun _ => pure (.next 1)) streams

/-- Carry out one line over the streams.  The error stream is flushed after
every line. -/
def attempt (session : Session) (files : FileView) (line : Text) : StreamM Flow := do
  let flow ← recover ((session.registry files).handle line session.scope)
  flushError
  pure flow

def paths (session : Session) (line : Text) : List Path :=
  match Words.split line, session.scope.directory with
  | some (name :: arguments), .ok directory =>
      if name = Concatenation.name then
        arguments.flatMap (session.rule.places directory)
      else []
  | _, _ => []

@[ext]
structure Round where
  result : Except ShellError Flow
  session : Session
  streams : Streams

/-- Carry out one line.  A line after which the shell goes on leaves its
status in the variables, and no other line changes them. -/
def execute (session : Session) (files : FileView) (line : Text)
    (streams : Streams) : Round :=
  match session.attempt files line streams with
  | .ok (.next status) streams =>
      ⟨.ok (.next status),
        { session with scope := session.scope.setStatus status }, streams⟩
  | .ok (.exit code) streams => ⟨.ok (.exit code), session, streams⟩
  | .error error streams => ⟨.error error, session, streams⟩

theorem onlyReads_recover {run : StreamM Flow} (reads : OnlyReads run) :
    OnlyReads (recover run) := by
  intro streams
  have reached := reads streams
  unfold recover
  cases result : run streams with
  | ok flow middle =>
      rw [result] at reached
      exact reached
  | error error middle =>
      rw [result] at reached
      have shown : OnlyReads (writeError (Utf8.encode error.presentation) >>=
          fun _ => (pure (.next 1) : StreamM Flow)) :=
        .bind (.write .error _) fun _ => .pure _
      exact (shown middle).trans reached

/-- What passes from the steps of commands to a line passes on to showing its error. -/
theorem attempt_of_compositional {property : forall {α : Type}, StreamM α -> Prop}
    (session : Session) (steps : Compositional session.scope property)
    (recovers : forall {run : StreamM Flow}, property run -> property (recover run))
    (files : FileView) (line : Text) : property (session.attempt files line) := by
  have handled : property ((session.registry files).handle line session.scope) :=
    steps.handle_registry session.rule files line
  apply steps.sequence (recovers handled)
  intro _
  apply steps.sequence (steps.flush .error)
  intro _
  exact steps.value _

theorem onlyReads_attempt (session : Session) (files : FileView) (line : Text) :
    OnlyReads (session.attempt files line) :=
  session.attempt_of_compositional (compositional_onlyReads _) onlyReads_recover files line

/-- A line never lengthens the input. -/
theorem execute_input_suffix (session : Session) (files : FileView) (line : Text)
    (streams : Streams) :
    (session.execute files line streams).streams.input.pending <:+
      streams.input.pending := by
  have reached := onlyReads_attempt session files line streams
  unfold execute
  split <;> next result => rw [result] at reached; exact reached

end Session
end MiniShell
