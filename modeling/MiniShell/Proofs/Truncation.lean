import MiniShell.Proofs.Plans

namespace MiniShell

/-!
# Failing sinks only truncate

One line is carried out twice, over the same files, variables and input: once on
sinks that never fail, and once on sinks of any size that may fail to be flushed.
What the second run leaves behind is the beginning of what the first one did.

The output is cut where there is no more room.  The error stream is reached only if
the output has been completed, which means that everything fitted and that it could
be flushed if the line does so.  The result of a line that is refused or that ends
the shell stays the same, and a line that succeeds in the second run has lost
nothing.  All of this is read off the plan of the line.
-/

open StreamM

/-- How many more bytes the sink can keep, if there is a bound. -/
def Sink.room? (sink : Sink) : Option Nat :=
  sink.capacity.map fun capacity => capacity - sink.stored.length

/-- The first bytes up to a limit, if there is one. -/
def beginning (limit : Option Nat) (bytes : Bytes) : Bytes :=
  match limit with
  | none => bytes
  | some limit => bytes.take limit

theorem Sink.fitting_eq_beginning (sink : Sink) (bytes : Bytes) :
    sink.fitting bytes = beginning sink.room? bytes := by
  rcases sink with ⟨stored, capacity, flushFails⟩
  cases capacity <;> rfl

/-! ## Two runs of one line -/

/-- A line that has this run on sinks which never fail flushes the output.  Only concatenation
does, and only if it does not fail. -/
def FlushesOutput (line : Text) (whole : Seen Flow) : Prop :=
  Concatenation.IsNamedBy line ∧ exists flow, whole.result = .ok flow

/-- A line that has this run on sinks which never fail flushes the error stream.  Only
concatenation does, and only if it has written to it. -/
def FlushesError (line : Text) (whole : Seen Flow) : Prop :=
  Concatenation.IsNamedBy line ∧ whole.error.stored ≠ []

/-- Everything for the output could be written and flushed. -/
def CompletesOutput (line : Text) (output : Sink) (whole cut : Seen Flow) : Prop :=
  cut.output.stored = output.stored ++ whole.output.stored ∧
    (FlushesOutput line whole -> output.flushFails = false)

/-- Everything for the error stream could be written and flushed. -/
def CompletesError (line : Text) (error : Sink) (whole cut : Seen Flow) : Prop :=
  cut.error.stored = error.stored ++ whole.error.stored ∧
    (FlushesError line whole -> error.flushFails = false)

/-- The run on the given sinks is the run on sinks that never fail, cut short. -/
structure Truncates (line : Text) (output error : Sink) (whole cut : Seen Flow) : Prop where
  printed : cut.output.stored =
    output.stored ++ beginning output.room? whole.output.stored
  diagnosed : CompletesOutput line output whole cut ->
    cut.error.stored = error.stored ++ beginning error.room? whole.error.stored
  undiagnosed : ¬ CompletesOutput line output whole cut -> cut.error.stored = error.stored
  refused : forall failure, whole.result = .error failure ->
    (forall fault, failure ≠ .io fault) -> cut.result = .error failure
  ended : forall code, whole.result = .ok (.exit code) -> cut.result = .ok (.exit code)
  succeeded : forall flow, cut.result = .ok flow ->
    whole.result = .ok flow ∧ CompletesOutput line output whole cut ∧
      CompletesError line error whole cut
  completed : CompletesOutput line output whole cut -> CompletesError line error whole cut ->
    cut.result = whole.result

/-! ## Two runs of one plan -/

namespace Plan

variable {line : Text} {plan : Plan}

/-- What is seen of a plan that is carried out to its end. -/
def whole (plan : Plan) : Seen Flow :=
  ⟨plan.ending, { stored := plan.output }, { stored := plan.diagnostics }⟩

theorem onSinks_empty (plan : Plan) : plan.onSinks {} {} = plan.whole := by
  have unfailing : ({} : Sink).Unfailing := ⟨rfl, rfl⟩
  rw [onSinks, plan.reached_unfailing unfailing, plan.written_unfailing unfailing,
    unfailing.send_eq]
  rfl

theorem flushesOutput_iff (flushes : plan.FlushesIff (Concatenation.IsNamedBy line)) :
    FlushesOutput line plan.whole ↔ plan.flushes = true := by
  constructor
  · rintro ⟨named, flow, ended⟩
    exact (flushes flow ended).mpr named
  · intro flushed
    cases plan with
    | print output diagnostics flag => exact ⟨(flushes _ rfl).mp flushed, _, rfl⟩
    | _ => cases flushed

theorem flushesError_iff (flushes : plan.FlushesIff (Concatenation.IsNamedBy line)) :
    FlushesError line plan.whole ↔ (plan.flushes && !plan.diagnostics.isEmpty) = true := by
  rw [FlushesError, Bool.and_eq_true, Bool.not_eq_true', List.isEmpty_eq_false_iff]
  apply and_congr_left
  intro written
  cases plan with
  | print output diagnostics flag => exact (flushes _ rfl).symm
  | _ => exact absurd rfl written

/-- The output is completed exactly if sending it succeeds. -/
theorem completesOutput_iff (flushes : plan.FlushesIff (Concatenation.IsNamedBy line))
    (output error : Sink) :
    CompletesOutput line output plan.whole (plan.onSinks output error) ↔
      output.send plan.output plan.flushes = .ok () := by
  rw [Sink.send_eq_ok_iff, Sink.fits_iff_fitting_eq, ← flushesOutput_iff flushes]
  exact and_congr_left fun _ => List.append_right_inj output.stored

/-- If the output has been sent, the error stream is completed exactly if sending the
diagnostics succeeds. -/
theorem completesError_iff (flushes : plan.FlushesIff (Concatenation.IsNamedBy line))
    {output : Sink} (sent : output.send plan.output plan.flushes = .ok ()) (error : Sink) :
    CompletesError line error plan.whole (plan.onSinks output error) ↔
      error.send plan.diagnostics (plan.flushes && !plan.diagnostics.isEmpty) = .ok () := by
  rw [onSinks_of_sent sent, Sink.send_eq_ok_iff, Sink.fits_iff_fitting_eq,
    ← flushesError_iff flushes]
  exact and_congr_left fun _ => List.append_right_inj error.stored

theorem truncates (flushes : plan.FlushesIff (Concatenation.IsNamedBy line))
    (output error : Sink) :
    Truncates line output error plan.whole (plan.onSinks output error) where
  printed := by
    rw [← Sink.fitting_eq_beginning]
    rfl
  diagnosed := by
    intro completes
    have sent := (completesOutput_iff flushes output error).mp completes
    rw [← Sink.fitting_eq_beginning, onSinks_of_sent sent]
    rfl
  undiagnosed := by
    intro incomplete
    rw [completesOutput_iff flushes] at incomplete
    cases sent : output.send plan.output plan.flushes with
    | ok value => exact absurd sent incomplete
    | error fault => rw [onSinks_of_not_sent sent]
  refused := by
    intro failure failed notIo
    cases plan with
    | refuse refusal speaks =>
        rw [(silent_refuse refusal speaks).onSinks_eq]
        exact failed
    | exit code => cases failed
    | print output diagnostics flushes => cases failed
    | breakOff output fault =>
        injection failed with same
        exact absurd same.symm (notIo fault)
  ended := by
    intro code ended
    cases plan with
    | exit requested =>
        rw [(silent_exit requested).onSinks_eq]
        exact ended
    | _ => cases ended
  succeeded := by
    intro flow succeeded
    cases sent : output.send plan.output plan.flushes with
    | error fault =>
        rw [onSinks_of_not_sent sent] at succeeded
        cases succeeded
    | ok value =>
        have completes := (completesOutput_iff flushes output error).mpr sent
        have both := succeeded
        rw [onSinks_of_sent sent, unlessFault_eq_ok_iff] at both
        exact ⟨both.2, completes, (completesError_iff flushes sent error).mpr both.1⟩
  completed := by
    intro completesOutput completesError
    have sent := (completesOutput_iff flushes output error).mp completesOutput
    have diagnosed := (completesError_iff flushes sent error).mp completesError
    rw [onSinks_of_sent sent, diagnosed]
    rfl

end Plan

/-- Carrying out a line on sinks of any size, which may already hold something and may fail to
be flushed, truncates what the same line does on sinks that never fail. -/
theorem Registry.failing_sinks_truncate (rule : PathRule) (files : FileView) (line : Text)
    (scope : Variables) (input : Source) (output error : Sink) :
    let handle := (Builtin.registry rule files).handle line scope
    Truncates line output error (seen (handle ⟨input, {}, {}⟩))
      (seen (handle ⟨input, output, error⟩)) := by
  intro handle
  rcases Plan.exists_seen_handle rule files line scope input with ⟨plan, flushes, follows⟩
  rw [follows, follows, Plan.onSinks_empty]
  exact plan.truncates flushes output error

end MiniShell
