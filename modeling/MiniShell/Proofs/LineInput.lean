import MiniShell.Proofs.Agreement
import MiniShell.Proofs.SessionVariables

namespace MiniShell

/-!
# What a line takes from the input

Only one line reads anything: the one whose only word is the name of the command
that concatenates.  Every other line carries out a plan, and no plan reads.  The
line that reads leaves nothing behind, and what it has read is what it writes.

On sinks that never fail, a line adds the same bytes to whatever the sinks already
hold, and ends in the same way.  It can therefore be carried out on empty sinks
first, and the bytes can be collected afterwards.
-/

open StreamM

/-! ## Plans do not read -/

namespace StreamM

variable {α β : Type}

/-- The computation leaves the input as it was. -/
def KeepsInput (run : StreamM α) : Prop :=
  forall streams, (after (run streams)).input = streams.input

namespace KeepsInput

theorem bind {run : StreamM α} {next : α -> StreamM β} (first : KeepsInput run)
    (second : forall value, KeepsInput (next value)) : KeepsInput (run >>= next) := by
  intro streams
  have reached := first streams
  cases result : run streams with
  | ok value middle =>
      rw [result] at reached
      rw [bind_of_ok result]
      exact (second value middle).trans reached
  | error error middle =>
      rw [result] at reached
      rw [bind_of_error result]
      exact reached

theorem lift (value : Except ShellError α) : KeepsInput (StreamM.lift value) := by
  cases value <;> exact fun _ => rfl

theorem settle (streams : Streams) (result : Except Fault α) :
    (after (StreamM.settle streams result)).input = streams.input := by
  cases result <;> rfl

theorem send (channel : Channel) (bytes : Bytes) (flushes : Bool) :
    KeepsInput (StreamM.send channel bytes flushes) := by
  intro streams
  rw [send_eq, settle, Streams.input_withSink]

theorem perform (plan : Plan) : KeepsInput plan.perform :=
  .bind (.send _ _ _) fun _ => .bind (.send _ _ _) fun _ => .lift _

theorem recover {run : StreamM Flow} (keeps : KeepsInput run) :
    KeepsInput (Session.recover run) := by
  intro streams
  have reached := keeps streams
  unfold Session.recover
  cases result : run streams with
  | ok flow middle =>
      rw [result] at reached
      exact reached
  | error error middle =>
      rw [result] at reached
      have shown : KeepsInput (StreamM.send .error (Utf8.encode error.presentation) false >>=
          fun _ => StreamM.lift (.ok (Flow.next 1))) :=
        .bind (.send _ _ _) fun _ => .lift _
      rw [send_false] at shown
      exact (shown middle).trans reached

end KeepsInput
end StreamM

namespace Session

variable {session : Session} {files : FileView} {line : Text}

/-- A line takes nothing from the input if on these streams its command could be exchanged for
one that takes nothing. -/
theorem input_execute_of_keepsInput {run : StreamM Flow} (keeps : KeepsInput run)
    {streams : Streams}
    (handled : (session.registry files).handle line session.scope streams = run streams) :
    (session.execute files line streams).streams.input = streams.input := by
  have recovered : recover ((session.registry files).handle line session.scope) streams =
      recover run streams := by
    rw [recover, handled, recover]
  have attempted : KeepsInput (recover run >>= fun flow => flush .error >>= fun _ => pure flow) := by
    rw [flush_eq_send]
    exact .bind keeps.recover fun flow => .bind (.send _ _ _) fun _ => .lift (.ok flow)
  have reached := attempted streams
  rw [← bind_eq_of_eq recovered] at reached
  change (StreamM.after (session.attempt files line streams)).input = _ at reached
  unfold execute
  split <;> next result => rw [result] at reached; exact reached

/-- A line takes nothing from the input, unless it copies the input. -/
theorem input_execute (notCopy : Words.split line ≠ some [Concatenation.name])
    (streams : Streams) : (session.execute files line streams).streams.input = streams.input := by
  have planned : Planned ((session.registry files).handle line session.scope) _ :=
    Builtin.planned_handle line notCopy
  rcases planned with ⟨plan, performed, -⟩
  exact input_execute_of_keepsInput (.perform plan) (congrFun performed streams)

/-- The line that copies the input leaves nothing of it, and writes just that. -/
theorem execute_copy (copy : Words.split line = some [Concatenation.name]) (rest : Bytes)
    {output error : Sink} (outputs : output.Unfailing) (errors : error.Unfailing) :
    session.execute files line ⟨⟨rest, none⟩, output, error⟩ =
      ⟨.ok (.next 0), { session with scope := session.scope.setStatus 0 },
        ⟨{}, output.holding rest, error⟩⟩ := by
  have flushed : flush .output ⟨{}, output.holding rest, error⟩ =
      .ok () ⟨{}, output.holding rest, error⟩ := flush_eq .output (outputs.holding rest).flushes
  have handled : (session.registry files).handle line session.scope ⟨⟨rest, none⟩, output, error⟩ =
      .ok (.next 0) ⟨{}, output.holding rest, error⟩ := by
    rw [registry, Builtin.handle_copy copy]
    have joined := proceed_bind_bind Concatenation.copyLines (flush .output) 0
    have copied := Concatenation.copyLines_eq outputs rest error
    exact (congrFun joined _).trans ((bind_of_ok copied).trans (bind_of_ok flushed))
  have attempted := (attempt_of_ok handled).trans (bind_of_ok (flush_eq .error errors.flushes))
  rw [execute, attempted]
  rfl

/-- Over sinks that never fail a line adds what it does over empty ones. -/
theorem execute_holding (notCopy : Words.split line ≠ some [Concatenation.name])
    (input : Source) {output error : Sink} (outputs : output.Unfailing)
    (errors : error.Unfailing) :
    let round := session.execute files line ⟨input, {}, {}⟩
    session.execute files line ⟨input, output, error⟩ =
      { round with
        streams := ⟨input, output.holding round.streams.output.stored,
          error.holding round.streams.error.stored⟩ } := by
  intro round
  have empty : ({} : Sink).Unfailing := ⟨rfl, rfl⟩
  rcases session.exists_follows files line input with ⟨plan, follows⟩
  have here := follows.onSinks_unfailing output errors
  have there := follows.onSinks_unfailing {} empty
  rw [plan.reached_unfailing outputs, said_unfailing outputs, outputs.keeping_eq] at here
  rw [plan.reached_unfailing empty, said_unfailing empty, empty.keeping_eq] at there
  injection here with result sameOutput sameError
  injection there with roundResult roundOutput roundError
  have sameResult : (session.execute files line ⟨input, output, error⟩).result = round.result :=
    result.trans roundResult.symm
  ext1
  · exact sameResult
  · rw [session_execute, Round.status?, sameResult]
    exact (session.session_execute files line ⟨input, {}, {}⟩).symm
  · dsimp only
    ext1
    · exact input_execute notCopy _
    · rw [sameOutput, roundOutput]
      rfl
    · rw [sameError, roundError]
      rfl

end Session
end MiniShell
