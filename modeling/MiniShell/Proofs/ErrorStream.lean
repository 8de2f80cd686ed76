import MiniShell.Proofs.Plans
import MiniShell.Session

namespace MiniShell
namespace Session

/-!
# The error stream of a line

A line has two things to say on the error stream: the diagnostics of its command,
and then the error of the command, which the session shows.  On an error stream
whose flush succeeds both are one sending.  The reason is that an error of the
session's own making, shown because the diagnostics did not fit, finds no room
either.  So a full stream holds the beginning of what would have been said, and is
never taken for a success.

Nothing else fails a line.  With room for everything, every error of a command has
become a status.
-/

open StreamM

/-! ## From a command to a line -/

/-- What is shown of the result of a line. -/
def shown : Except ShellError Flow -> Bytes
  | .ok _ => []
  | .error error => Utf8.encode error.presentation

/-- What the shell does after a line, once its error has been shown. -/
def recovered : Except ShellError Flow -> Flow
  | .ok flow => flow
  | .error _ => .next 1

/-- The shell always has something to say about an error that a stream has caused. -/
theorem shown_io_ne_nil (fault : Fault) : shown (.error (.io fault)) ≠ [] :=
  Utf8.encode_ne_nil (ShellError.presentation_ne_nil (fun same => by cases same))

/-- After a command that has succeeded, all that is left is to flush the error stream. -/
theorem attempt_of_ok {session : Session} {files : FileView} {line : Text}
    {streams after : Streams} {flow : Flow}
    (handled : (session.registry files).handle line session.scope streams = .ok flow after) :
    session.attempt files line streams = (flush .error >>= fun _ => pure flow) after := by
  have passed : recover ((session.registry files).handle line session.scope) streams =
      .ok flow after := by
    rw [recover, handled]
  rw [attempt, bind_of_ok passed]

/-- What is seen of a line follows from what is seen of its command. -/
theorem seen_attempt {session : Session} {files : FileView} {line : Text} {streams : Streams}
    {handled : Seen Flow}
    (same : seen ((session.registry files).handle line session.scope streams) = handled) :
    seen (session.attempt files line streams) =
      ⟨unlessFault (handled.error.send (shown handled.result) true)
          (.ok (recovered handled.result)),
        handled.output, handled.error.keeping (shown handled.result)⟩ := by
  subst same
  cases ended : (session.registry files).handle line session.scope streams with
  | ok flow after =>
      rw [attempt_of_ok ended, flush_eq_send]
      exact seen_send_lift .error [] true (.ok flow) after
  | error failure after =>
      have presented : recover ((session.registry files).handle line session.scope) streams =
          (writeError (Utf8.encode failure.presentation) >>= fun _ => pure (.next 1)) after := by
        rw [recover, ended]
      have joined : session.attempt files line streams =
          (send .error (Utf8.encode failure.presentation) true >>= fun _ => pure (.next 1))
            after := by
        rw [attempt, bind_eq_of_eq presented, send]
        simp only [bind_assoc, pure_bind, if_true]
      rw [joined]
      exact seen_send_lift .error _ true (.ok (Flow.next 1)) after

/-- What is seen of a round, as of a computation. -/
def Round.onSinks (round : Round) : Seen Flow :=
  ⟨round.result, round.streams.output, round.streams.error⟩

theorem onSinks_execute (session : Session) (files : FileView) (line : Text)
    (streams : Streams) :
    (session.execute files line streams).onSinks =
      seen (session.attempt files line streams) := by
  unfold execute
  split <;> next ended => rw [ended]; rfl

/-! ## Lines that follow a plan -/

/-- With this input and on all sinks, the line does to the sinks what the plan does. -/
def Follows (session : Session) (files : FileView) (line : Text) (input : Source)
    (plan : Plan) : Prop :=
  forall output error,
    seen ((session.registry files).handle line session.scope ⟨input, output, error⟩) =
      plan.onSinks output error

theorem exists_follows (session : Session) (files : FileView) (line : Text) (input : Source) :
    exists plan, session.Follows files line input plan := by
  rcases Plan.exists_seen_handle session.rule files line session.scope input with
    ⟨plan, -, follows⟩
  exact ⟨plan, follows⟩

/-- All that a line with this plan has to say on the error stream: the diagnostics and the
error.  It depends on how far the output gets. -/
def said (plan : Plan) (output : Sink) : Bytes :=
  plan.written output ++ shown (plan.reached output)

theorem said_unfailing {output : Sink} (unfailing : output.Unfailing) (plan : Plan) :
    said plan output = plan.diagnostics ++ shown plan.ending := by
  rw [said, plan.reached_unfailing unfailing, plan.written_unfailing unfailing]

namespace Follows

variable {session : Session} {files : FileView} {line : Text} {input : Source} {plan : Plan}

/-- On an error stream whose flush succeeds, all that there is to say is sent at once. -/
theorem onSinks_eq (follows : session.Follows files line input plan) (output : Sink)
    {error : Sink} (flushes : error.flushFails = false) :
    (session.execute files line ⟨input, output, error⟩).onSinks =
      ⟨unlessFault (error.send (said plan output) true) (.ok (recovered (plan.reached output))),
        output.keeping plan.output, error.keeping (said plan output)⟩ := by
  have unflushed := Sink.send_eq_of_flushes flushes (plan.written output)
    (plan.flushes && !(plan.written output).isEmpty) false
  have handled := follows output error
  rw [Plan.onSinks, unflushed] at handled
  rw [onSinks_execute, seen_attempt handled, said, Sink.send_append]
  by_cases room : error.Fits (plan.written output)
  · rw [Sink.send_of_fits room, Sink.keeping_keeping]
    rfl
  · -- What the shell says about the full stream finds no room either.
    have noRoom := Sink.not_fits_keeping room (shown_io_ne_nil Sink.full)
    rw [Sink.send_of_not_fits room]
    dsimp only [unlessFault]
    rw [Sink.send_of_not_fits noRoom, Sink.keeping_keeping,
      Sink.keeping_append_of_not_fits room, Sink.keeping_append_of_not_fits room]

/-- On an error stream that never fails, everything is said and the shell goes on. -/
theorem onSinks_unfailing (follows : session.Follows files line input plan) (output : Sink)
    {error : Sink} (unfailing : error.Unfailing) :
    (session.execute files line ⟨input, output, error⟩).onSinks =
      ⟨.ok (recovered (plan.reached output)), output.keeping plan.output,
        error.holding (said plan output)⟩ := by
  rw [follows.onSinks_eq output unfailing.flushes, unfailing.send_eq, unfailing.keeping_eq]
  rfl

/-- An error stream that cannot be flushed fails every line. -/
theorem exists_result_eq_error (follows : session.Follows files line input plan) (output : Sink)
    {error : Sink} (unflushed : error.flushFails = true) :
    exists fault, (session.execute files line ⟨input, output, error⟩).result =
      .error (.io fault) := by
  have known := (onSinks_execute session files line ⟨input, output, error⟩).trans
    (seen_attempt (follows output error))
  have stillUnflushed : (plan.onSinks output error).error.flushFails = true := unflushed
  rcases Sink.exists_send_eq_error stillUnflushed (shown _) with ⟨fault, failed⟩
  rw [failed] at known
  exact ⟨fault, congrArg Seen.result known⟩

end Follows

/-- Over an error stream that never fails, the error of the command is shown, and the shell
goes on. -/
theorem onSinks_execute_unfailing (session : Session) (files : FileView) (line : Text)
    (input : Source) (output : Sink) {error : Sink} (unfailing : error.Unfailing) :
    let handled :=
      seen ((session.registry files).handle line session.scope ⟨input, output, error⟩)
    (session.execute files line ⟨input, output, error⟩).onSinks =
      ⟨.ok (recovered handled.result), handled.output,
        handled.error.holding (shown handled.result)⟩ := by
  intro handled
  rcases session.exists_follows files line input with ⟨plan, follows⟩
  have same : handled = plan.onSinks output error := follows output error
  have stillUnfailing : handled.error.Unfailing := by
    rw [same, Plan.onSinks, unfailing.keeping_eq]
    exact unfailing.holding _
  rw [onSinks_execute, seen_attempt rfl, stillUnfailing.send_eq, stillUnfailing.keeping_eq]
  rfl

/-- What a line says on the error stream, and what comes of it there.  Let `said` be what an
error stream without a bound holds after the line.  That is what the command has written and
then the error of the command, and the shell goes on whatever the error.  An error stream
with a bound holds the beginning of the same bytes, and the line ends as it did before unless
something is missing.  No line succeeds on an error stream that cannot be flushed. -/
theorem error_stream_is_exact (session : Session) (files : FileView) (line : Text)
    (streams : Streams) :
    let whole := session.execute files line { streams with error := {} }
    let said := whole.streams.error.stored
    (match (session.registry files).handle line session.scope { streams with error := {} } with
      | .ok flow after => whole.result = .ok flow ∧ said = after.error.stored
      | .error error after =>
          whole.result = .ok (.next 1) ∧
            said = after.error.stored ++ Utf8.encode error.presentation) ∧
    (forall capacity,
      let round := session.execute files line
        { streams with error := { capacity := some capacity } }
      round.result =
          (if said.length ≤ capacity then whole.result else .error (.io Sink.full)) ∧
        round.streams.error.stored = said.take capacity) ∧
    forall error : Sink, exists fault,
      (session.execute files line
        { streams with error := { error with flushFails := true } }).result =
          .error (.io fault) := by
  intro whole said
  rcases session.exists_follows files line streams.input with ⟨plan, follows⟩
  have unfailing : ({} : Sink).Unfailing := ⟨rfl, rfl⟩
  have known := follows.onSinks_unfailing streams.output unfailing
  have wholeResult : whole.result = .ok (recovered (plan.reached streams.output)) :=
    congrArg Seen.result known
  have wholeSaid : said = Session.said plan streams.output :=
    congrArg (fun seen => seen.error.stored) known
  refine ⟨?_, ?_, ?_⟩
  · have shows := session.onSinks_execute_unfailing files line streams.input streams.output
      unfailing
    split
    · next flow after ended =>
        rw [ended] at shows
        have held := congrArg (fun seen => seen.error.stored) shows
        exact ⟨congrArg Seen.result shows, held.trans (List.append_nil _)⟩
    · next error after ended =>
        rw [ended] at shows
        exact ⟨congrArg Seen.result shows, congrArg (fun seen => seen.error.stored) shows⟩
  · intro capacity
    let error : Sink := { capacity := some capacity }
    have fits : error.Fits said ↔ said.length ≤ capacity :=
      Sink.fits_iff_of_capacity rfl rfl said
    have flushes : error.flushFails = false := rfl
    have bounded := follows.onSinks_eq streams.output flushes
    rw [← wholeSaid] at bounded
    refine ⟨?_, congrArg (fun seen => seen.error.stored) bounded⟩
    have result := congrArg Seen.result bounded
    by_cases room : said.length ≤ capacity
    · rw [Sink.send_eq_of_flushes flushes said true false, Sink.send_of_fits (fits.mpr room)]
        at result
      rw [if_pos room, wholeResult]
      exact result
    · rw [Sink.send_of_not_fits (mt fits.mp room)] at result
      rw [if_neg room]
      exact result
  · intro error
    exact follows.exists_result_eq_error streams.output rfl

end Session
end MiniShell
