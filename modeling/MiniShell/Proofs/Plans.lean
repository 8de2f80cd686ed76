import MiniShell.Command.Builtin
import MiniShell.Proofs.Aggregation
import MiniShell.Proofs.Copying

namespace MiniShell

/-!
# The plan of a line

A line of the shell writes in a fixed order: first all that it has for the output,
and then all that it has for the error stream.  What it is going to write, and how
it is going to end, is settled before the first byte is written, by the words of
the line, the variables, the files and the input.  The sinks only decide how far
it gets.

`Plan` has the four ways in which a line can go.  Nothing is written by a line that
is refused or that ends the shell, and the status of a line that is printed says
whether there are diagnostics.  Every line of the shell carries out a plan.  For
all lines but one this is an equation between computations.  The line that copies
the input reads while it writes, and there the two are the same on all sinks.
-/

open StreamM

/-! ## Plans -/

inductive Plan where
  /-- Write nothing, and fail.  The error says something. -/
  | refuse (error : ShellError) (speaks : error.presentation ≠ [])
  /-- Write nothing, and end the shell. -/
  | exit (code : Int)
  /-- Write to the output, and then the diagnostics to the error stream. -/
  | print (output diagnostics : Bytes) (flushes : Bool)
  /-- Write to the output, and then fail with a fault of the input. -/
  | breakOff (output : Bytes) (fault : Fault)

namespace Plan

def output : Plan -> Bytes
  | print output _ _ => output
  | breakOff output _ => output
  | _ => []

def diagnostics : Plan -> Bytes
  | print _ diagnostics _ => diagnostics
  | _ => []

def flushes : Plan -> Bool
  | print _ _ flushes => flushes
  | _ => false

/-- How the line ends if everything could be written.  The status tells whether there are
diagnostics. -/
def ending : Plan -> Except ShellError Flow
  | refuse error _ => .error error
  | exit code => .ok (.exit code)
  | print _ diagnostics _ => .ok (.next (if diagnostics.isEmpty then 0 else 1))
  | breakOff _ fault => .error (.io fault)

/-- Carry out a plan.  The error stream is flushed only if something was written to it. -/
def perform (plan : Plan) : StreamM Flow := do
  send .output plan.output plan.flushes
  send .error plan.diagnostics (plan.flushes && !plan.diagnostics.isEmpty)
  lift plan.ending

/-- If the plan comes to its end, it flushes exactly under this condition. -/
def FlushesIff (plan : Plan) (condition : Prop) : Prop :=
  forall flow, plan.ending = .ok flow -> (plan.flushes = true ↔ condition)

theorem FlushesIff.of_neither {plan : Plan} {condition : Prop} (holds : plan.flushes = false)
    (never : ¬ condition) : plan.FlushesIff condition := by
  intro _ _
  rw [holds]
  exact iff_of_false Bool.false_ne_true never

/-- Nothing is written, and nothing is flushed. -/
structure Silent (plan : Plan) : Prop where
  output : plan.output = []
  diagnostics : plan.diagnostics = []
  flushes : plan.flushes = false

theorem Silent.perform_eq {plan : Plan} (silent : plan.Silent) :
    plan.perform = lift plan.ending := by
  rw [perform, silent.output, silent.diagnostics, silent.flushes, send_nil,
    Bool.false_and, send_nil]
  simp only [pure_bind]

theorem silent_refuse (error : ShellError) (speaks : error.presentation ≠ []) :
    (refuse error speaks).Silent :=
  ⟨rfl, rfl, rfl⟩

theorem silent_exit (code : Int) : (exit code).Silent :=
  ⟨rfl, rfl, rfl⟩

/-- Only output, and a success. -/
theorem perform_print_output (output : Bytes) (flushes : Bool) :
    (print output [] flushes).perform =
      send .output output flushes >>= fun _ => pure (.next 0) := by
  simp only [perform, Plan.output, diagnostics, Plan.flushes, ending, List.isEmpty_nil,
    Bool.not_true, Bool.and_false, send_nil, pure_bind]
  rfl

/-- Only diagnostics, and a failure. -/
theorem perform_print_diagnostics {diagnostics : Bytes} (nonempty : diagnostics ≠ []) :
    (print [] diagnostics false).perform =
      writeError diagnostics >>= fun _ => pure (.next 1) := by
  have notEmpty : diagnostics.isEmpty = false := List.isEmpty_eq_false_iff.mpr nonempty
  simp only [perform, output, Plan.diagnostics, flushes, ending, notEmpty, Bool.false_and,
    send_nil, pure_bind]
  rw [send_false]
  rfl

/-! ## Plans on sinks -/

/-- How the plan ends over an error stream that never fails. -/
def reached (plan : Plan) (output : Sink) : Except ShellError Flow :=
  unlessFault (output.send plan.output plan.flushes) plan.ending

/-- What the plan writes to the error stream, which depends on the output. -/
def written (plan : Plan) (output : Sink) : Bytes :=
  match output.send plan.output plan.flushes with
  | .ok () => plan.diagnostics
  | .error _ => []

/-- What is seen of carrying out the plan on these sinks. -/
def onSinks (plan : Plan) (output error : Sink) : Seen Flow :=
  ⟨unlessFault (error.send (plan.written output)
      (plan.flushes && !(plan.written output).isEmpty)) (plan.reached output),
    output.keeping plan.output, error.keeping (plan.written output)⟩

/-- If the output could be sent, the diagnostics are sent next. -/
theorem onSinks_of_sent {plan : Plan} {output : Sink}
    (sent : output.send plan.output plan.flushes = .ok ()) (error : Sink) :
    plan.onSinks output error =
      ⟨unlessFault (error.send plan.diagnostics (plan.flushes && !plan.diagnostics.isEmpty))
          plan.ending,
        output.keeping plan.output, error.keeping plan.diagnostics⟩ := by
  rw [onSinks, written, reached, sent]
  rfl

/-- If the output could not be sent, the line ends there. -/
theorem onSinks_of_not_sent {plan : Plan} {output : Sink} {fault : Fault}
    (failed : output.send plan.output plan.flushes = .error fault) (error : Sink) :
    plan.onSinks output error = ⟨.error (.io fault), output.keeping plan.output, error⟩ := by
  rw [onSinks, written, reached, failed]
  simp only [List.isEmpty_nil, Bool.not_true, Bool.and_false, Sink.send_nil, Sink.keeping_nil]
  rfl

/-- A plan that writes nothing comes to its end on all sinks, and leaves them as they were. -/
theorem Silent.onSinks_eq {plan : Plan} (silent : plan.Silent) (output error : Sink) :
    plan.onSinks output error = ⟨plan.ending, output, error⟩ := by
  have sent : output.send plan.output plan.flushes = .ok () := by
    rw [silent.output, silent.flushes, Sink.send_nil]
  rw [onSinks_of_sent sent, silent.output, silent.diagnostics, silent.flushes, Bool.false_and,
    Sink.send_nil, Sink.keeping_nil, Sink.keeping_nil]
  rfl

theorem seen_perform (plan : Plan) (streams : Streams) :
    seen (plan.perform streams) = plan.onSinks streams.output streams.error := by
  have output : send .output plan.output plan.flushes streams =
      settle { streams with output := streams.output.keeping plan.output }
        (streams.output.send plan.output plan.flushes) := send_eq .output _ _ _
  rw [perform]
  cases sent : streams.output.send plan.output plan.flushes with
  | error fault =>
      rw [sent] at output
      rw [bind_of_error output, onSinks_of_not_sent sent]
      rfl
  | ok value =>
      rw [sent] at output
      rw [bind_of_ok output, onSinks_of_sent sent]
      exact seen_send_lift .error _ _ _ _

/-- Over an output that never fails, a plan comes to its end. -/
theorem reached_unfailing (plan : Plan) {output : Sink} (unfailing : output.Unfailing) :
    plan.reached output = plan.ending := by
  rw [reached, unfailing.send_eq]
  rfl

theorem written_unfailing (plan : Plan) {output : Sink} (unfailing : output.Unfailing) :
    plan.written output = plan.diagnostics := by
  rw [written, unfailing.send_eq]

end Plan

/-! ## Something to say -/

/-- Every error but an empty diagnosis is shown by something. -/
theorem ShellError.presentation_ne_nil {error : ShellError}
    (notEmpty : error ≠ .fatal []) : error.presentation ≠ [] := by
  cases error with
  | fatal diagnostics =>
      intro empty
      exact notEmpty (congrArg ShellError.fatal empty)
  | _ => exact List.append_ne_nil_of_right_ne_nil _ (List.cons_ne_nil _ _)

theorem Variables.presentation_of_directory_eq {scope : Variables} {error : ShellError}
    (untracked : scope.directory = .error error) : error.presentation ≠ [] := by
  apply ShellError.presentation_ne_nil
  intro same
  subst same
  unfold directory get at untracked
  split at untracked <;> cases untracked

namespace Concatenation

theorem Outcome.diagnostic_ne_nil {outcome : Outcome} (failed : outcome.failed = true) :
    outcome.diagnostic ≠ [] := by
  rcases outcome with ⟨argument, contents | words⟩
  · exact List.append_ne_nil_of_right_ne_nil _ (List.cons_ne_nil _ _)
  · cases failed

theorem Outcome.diagnostic_of_not_failed {outcome : Outcome} (read : outcome.failed = false) :
    outcome.diagnostic = [] := by
  rcases outcome with ⟨argument, contents | words⟩
  · cases read
  · rfl

/-- There are diagnostics exactly if something has failed. -/
theorem Tally.diagnostics_eq_nil_iff (outcomes : List Outcome) :
    (Tally.ofOutcomes outcomes).diagnostics = [] ↔ (Tally.ofOutcomes outcomes).failures = 0 := by
  simp only [ofOutcomes, List.flatMap_eq_nil_iff, List.countP_eq_zero, Bool.not_eq_true]
  constructor
  · intro silent outcome member
    cases failed : outcome.failed with
    | false => rfl
    | true => exact absurd (silent outcome member) (Outcome.diagnostic_ne_nil failed)
  · intro read outcome member
    exact Outcome.diagnostic_of_not_failed (read outcome member)

end Concatenation

/-! ## Commands -/

namespace StreamM

/-- Go on with the status that a command ends with. -/
def proceed (run : StreamM Int) : StreamM Flow :=
  run >>= fun status => pure (.next status)

theorem proceed_pure (status : Int) : proceed (pure status) = pure (.next status) :=
  pure_bind _ _

theorem proceed_bind_pure (run : StreamM Unit) (status : Int) :
    proceed (run >>= fun _ => pure status) = run >>= fun _ => pure (.next status) := by
  rw [proceed, bind_assoc]
  simp only [pure_bind]

/-- A command that only prints something succeeds. -/
theorem proceed_writeOutput (output : Bytes) :
    proceed (writeOutput output >>= fun _ => pure 0) = (Plan.print output [] false).perform := by
  rw [proceed_bind_pure, Plan.perform_print_output, send_false]

/-- A command that only complains fails. -/
theorem proceed_writeError {diagnostics : Bytes} (nonempty : diagnostics ≠ []) :
    proceed (writeError diagnostics >>= fun _ => pure 1) =
      (Plan.print [] diagnostics false).perform := by
  rw [proceed_bind_pure, Plan.perform_print_diagnostics nonempty]

theorem proceed_bind_bind (first second : StreamM Unit) (status : Int) :
    proceed (first >>= fun _ => second >>= fun _ => pure status) =
      first >>= fun _ => second >>= fun _ => pure (.next status) := by
  simp only [proceed, bind_assoc, pure_bind]

/-- Running a command does not end the shell. -/
theorem proceed_ne_exit (run : StreamM Int) (streams after : Streams) (code : Int) :
    proceed run streams ≠ .ok (.exit code) after := by
  intro ended
  cases ran : run streams with
  | ok status middle =>
      rw [proceed, bind_of_ok ran] at ended
      cases ended
  | error error middle =>
      rw [proceed, bind_of_error ran] at ended
      cases ended

/-- The computation carries out a plan, which flushes under this condition. -/
def Planned (run : StreamM Flow) (condition : Prop) : Prop :=
  exists plan : Plan, run = plan.perform ∧ plan.FlushesIff condition

namespace Planned

variable {condition : Prop}

theorem throw {error : ShellError} (speaks : error.presentation ≠ []) :
    Planned (MonadExcept.throw error) condition := by
  refine ⟨.refuse error speaks, (Plan.silent_refuse error speaks).perform_eq.symm, ?_⟩
  intro flow ended
  cases ended

theorem success (output : Bytes) (never : ¬ condition) :
    Planned (proceed (writeOutput output >>= fun _ => Pure.pure 0)) condition :=
  ⟨.print output [] false, proceed_writeOutput output, .of_neither rfl never⟩

theorem complaint {diagnostics : Bytes} (nonempty : diagnostics ≠ []) (never : ¬ condition) :
    Planned (proceed (writeError diagnostics >>= fun _ => Pure.pure 1)) condition :=
  ⟨.print [] diagnostics false, proceed_writeError nonempty, .of_neither rfl never⟩

theorem silence (never : ¬ condition) : Planned (Pure.pure (.next 0)) condition := by
  refine ⟨.print [] [] false, ?_, .of_neither rfl never⟩
  rw [Plan.perform_print_output, send_nil, pure_bind]

theorem exit (code : Int) (never : ¬ condition) :
    Planned (Pure.pure (.exit code)) condition :=
  ⟨.exit code, (Plan.silent_exit code).perform_eq.symm, .of_neither rfl never⟩

end Planned
end StreamM

namespace Builtin

variable {condition : Prop} (arguments : List Text) (scope : Variables)

theorem planned_echo (never : ¬ condition) :
    Planned (proceed (echo.run arguments scope)) condition := by
  exact .success _ never

theorem planned_exit (never : ¬ condition) :
    Planned (proceed (exit.run arguments scope)) condition := by
  have silent : proceed (exit.run arguments scope) = pure (.next 0) := proceed_pure 0
  rw [silent]
  exact .silence never

theorem planned_pwd (never : ¬ condition) :
    Planned (proceed (pwd.run arguments scope)) condition := by
  simp only [pwd]
  cases tracked : scope.directory with
  | error error => exact Planned.throw (Variables.presentation_of_directory_eq tracked)
  | ok marker =>
      exact .success _ never

theorem planned_type (never : ¬ condition) :
    Planned (proceed (type.run arguments scope)) condition := by
  cases arguments with
  | nil => exact .complaint (Utf8.encode_ne_nil (by decide)) never
  | cons name arguments =>
      simp only [type]
      split
      · exact .success _ never
      · have nonempty := List.append_ne_nil_of_right_ne_nil name
          (show ": not found\n".toList ≠ [] by decide)
        exact .complaint (Utf8.encode_ne_nil nonempty) never

end Builtin

namespace Concatenation

theorem showDiagnostics_eq_send (diagnostics : Text) :
    showDiagnostics diagnostics =
      send .error (Utf8.encode diagnostics) (!(Utf8.encode diagnostics).isEmpty) := by
  cases diagnostics with
  | nil => exact (send_nil .error).symm
  | cons c diagnostics =>
      have notEmpty : (Utf8.encode (c :: diagnostics)).isEmpty = false :=
        List.isEmpty_eq_false_iff.mpr (Utf8.encode_ne_nil (List.cons_ne_nil c diagnostics))
      rw [notEmpty]
      rfl

/-- The status of a tally tells whether there are diagnostics. -/
theorem Tally.status_eq (outcomes : List Outcome) :
    (if 0 < (Tally.ofOutcomes outcomes).failures then 1 else 0 : Int) =
      if (Utf8.encode (Tally.ofOutcomes outcomes).diagnostics).isEmpty then 0 else 1 := by
  have silent := Tally.diagnostics_eq_nil_iff outcomes
  by_cases none : (Tally.ofOutcomes outcomes).failures = 0
  · rw [none, silent.mpr none]
    rfl
  · have written := Utf8.encode_ne_nil (mt silent.mp none)
    rw [if_pos (Nat.pos_of_ne_zero none), if_neg (mt List.isEmpty_iff.mp written)]

/-- Outcomes that have not all failed are printed, and the sinks are flushed. -/
theorem report_eq_perform (outcomes : List Outcome) (notAll : outcomes.all Outcome.failed = false) :
    proceed (report outcomes.length (Tally.ofOutcomes outcomes)) =
      (Plan.print (Tally.ofOutcomes outcomes).output
        (Utf8.encode (Tally.ofOutcomes outcomes).diagnostics) true).perform := by
  rw [report, if_neg (Tally.failures_ne_length notAll), Tally.status_eq,
    showDiagnostics_eq_send]
  simp only [proceed, Plan.perform, Plan.output, Plan.diagnostics, Plan.flushes, send,
    if_true, Bool.true_and, bind_assoc, pure_bind]
  rfl

theorem planned_concatenate (rule : PathRule) (files : FileView) {arguments : List Text}
    (given : arguments ≠ []) (scope : Variables) {condition : Prop} (always : condition) :
    Planned (proceed (concatenate rule files arguments scope)) condition := by
  cases tracked : scope.directory with
  | error error =>
      rw [concatenate, tracked]
      exact Planned.throw (Variables.presentation_of_directory_eq tracked)
  | ok directory =>
      have run : concatenate rule files arguments scope =
          report arguments.length (tally rule files directory arguments) := by
        rw [concatenate, tracked]
        rfl
      rw [run, tally_eq_ofOutcomes, ← List.length_map (Outcome.of rule files directory)]
      have some : arguments.map (Outcome.of rule files directory) ≠ [] :=
        mt List.map_eq_nil_iff.mp given
      generalize arguments.map (Outcome.of rule files directory) = outcomes at some
      cases allFailed : outcomes.all Outcome.failed with
      | false => exact ⟨_, report_eq_perform outcomes allFailed, fun _ _ => iff_of_true rfl always⟩
      | true =>
          have refused : report outcomes.length (Tally.ofOutcomes outcomes) =
              throw (.fatal (outcomes.flatMap Outcome.diagnostic)) :=
            funext fun _ => report_of_all_failed outcomes allFailed
          rw [refused]
          apply Planned.throw
          -- There is an argument, and like all of them it has left a diagnostic.
          apply ShellError.presentation_ne_nil
          intro same
          injection same with silent
          have readAll := List.flatMap_eq_nil_iff.mp silent
          rcases List.exists_mem_of_ne_nil outcomes some with ⟨outcome, member⟩
          exact Outcome.diagnostic_ne_nil (List.all_eq_true.mp allFailed outcome member)
            (readAll outcome member)

end Concatenation

/-! ## Copying the input -/

namespace Concatenation

/-- What copying the input comes to. -/
def copyPlan (input : Source) : Plan :=
  match input.fault with
  | none => .print input.readable [] true
  | some fault => .breakOff input.readable fault

theorem seen_copyInput (streams : Streams) :
    seen (proceed copyInput streams) = seen ((copyPlan streams.input).perform streams) := by
  have joined : proceed copyInput =
      copyLines >>= fun _ => send .output [] true >>= fun _ => pure (.next 0) := by
    rw [← flush_eq_send]
    exact proceed_bind_bind copyLines (flush .output) 0
  have exchanged : seen (proceed copyInput streams) =
      seen (((send .output streams.input.readable false >>= fun _ => lift streams.input.verdict) >>=
        fun _ => send .output [] true >>= fun _ => pure (.next 0)) streams) := by
    rw [joined]
    apply seen_bind_congr
    · exact (seen_copyLines streams).trans (seen_send_lift .output _ _ _ _).symm
    · intro _ input other output error
      exact (seen_send_lift .output [] true (.ok (Flow.next 0)) ⟨input, output, error⟩).trans
        (seen_send_lift .output [] true (.ok (Flow.next 0)) ⟨other, output, error⟩).symm
  rw [exchanged, copyPlan, Source.verdict, bind_assoc]
  cases held : streams.input.fault with
  | none =>
      have fused : (send .output streams.input.readable false >>= fun _ =>
          send .output [] true >>= fun _ => pure (Flow.next 0)) =
          (Plan.print streams.input.readable [] true).perform := by
        rw [← bind_assoc, send_append, List.append_nil, Plan.perform_print_output]
      exact congrArg (fun run : StreamM Flow => seen (run streams)) fused
  | some fault =>
      have broken : (Plan.breakOff streams.input.readable fault).perform =
          send .output streams.input.readable false >>= fun _ => lift (.error (.io fault)) := by
        simp only [Plan.perform, Plan.output, Plan.diagnostics, Plan.flushes, Plan.ending,
          Bool.false_and, send_nil, pure_bind]
      rw [broken]
      rfl

end Concatenation

/-! ## Lines -/

/-- The line is one for the command that concatenates. -/
def Concatenation.IsNamedBy (line : Text) : Prop :=
  exists arguments, Words.split line = some (name :: arguments)

theorem Registry.mem_of_find? {registry : Registry} {name : Text} {command : Command}
    (found : registry.find? name = some command) :
    command ∈ registry.commands ∧ command.name = name := by
  unfold find? at found
  have called := List.find?_some found
  exact ⟨List.mem_of_find?_eq_some found, beq_iff_eq.mp called⟩

namespace Builtin

variable {rule : PathRule} {files : FileView} {scope : Variables}

theorem planned_of_mem {command : Command} (member : command ∈ (registry rule files).commands)
    {arguments : List Text}
    (notCopy : command.name = Concatenation.name -> arguments ≠ []) :
    Planned (proceed (command.run arguments scope)) (command.name = Concatenation.name) := by
  simp only [registry, List.mem_cons, List.not_mem_nil, or_false] at member
  rcases member with same | same | same | same | same
  · subst same
    have given : arguments ≠ [] := notCopy rfl
    rw [Concatenation.run_of_ne_nil rule files given]
    exact Concatenation.planned_concatenate rule files given scope rfl
  · subst same
    exact planned_echo arguments scope (by decide)
  · subst same
    exact planned_pwd arguments scope (by decide)
  · subst same
    exact planned_type arguments scope (by decide)
  · subst same
    exact planned_exit arguments scope (by decide)

/-- Only one command ends the shell. -/
theorem name_of_exitCode? {name : Text} {arguments : List Text} {code : Int}
    (asked : (registry rule files).exitCode? name arguments = some code) :
    name = exit.name ∧ code = requestedCode arguments := by
  rcases Option.bind_eq_some_iff.mp asked with ⟨command, found, ends⟩
  rcases Registry.mem_of_find? found with ⟨member, called⟩
  simp only [registry, List.mem_cons, List.not_mem_nil, or_false] at member
  rcases member with same | same | same | same | same
  · subst same
    cases ends
  · subst same
    cases ends
  · subst same
    cases ends
  · subst same
    cases ends
  · subst same
    exact ⟨called.symm, (Option.some.inj ends).symm⟩

/-- A line that does not copy the input carries out a plan, and one that concatenates flushes. -/
theorem planned_handle (line : Text) (notCopy : Words.split line ≠ some [Concatenation.name]) :
    Planned ((registry rule files).handle line scope) (Concatenation.IsNamedBy line) := by
  unfold Registry.handle
  split
  · exact Planned.throw (by decide)
  · next empty =>
      apply Planned.silence
      rintro ⟨arguments, named⟩
      rw [empty] at named
      cases named
  · next name arguments words =>
      have named : Concatenation.IsNamedBy line ↔ name = Concatenation.name := by
        constructor
        · rintro ⟨others, named⟩
          rw [words] at named
          cases named
          rfl
        · intro same
          exact ⟨arguments, same ▸ words⟩
      rw [named]
      split
      · next code asked =>
          apply Planned.exit
          rw [(name_of_exitCode? asked).1]
          decide
      · split
        · next run found =>
            rcases Option.map_eq_some_iff.mp found with ⟨command, first, same⟩
            rcases Registry.mem_of_find? first with ⟨member, called⟩
            subst same called
            apply planned_of_mem member
            intro same noArguments
            rw [same, noArguments] at words
            exact notCopy words
        · exact Planned.throw (ShellError.presentation_ne_nil (fun same => by cases same))

/-- A line that begins with the name of the command that ends the shell does nothing else. -/
theorem handle_exit {line : Text} {arguments : List Text}
    (words : Words.split line = some (exit.name :: arguments)) :
    (registry rule files).handle line scope = pure (.exit (requestedCode arguments)) := by
  rw [Registry.handle, words]
  rfl

/-- No other line ends the shell. -/
theorem words_of_handle_eq_exit {line : Text} {streams after : Streams} {code : Int}
    (ended : (registry rule files).handle line scope streams = .ok (.exit code) after) :
    exists arguments, Words.split line = some (exit.name :: arguments) := by
  rw [Registry.handle] at ended
  cases words : Words.split line with
  | none =>
      rw [words] at ended
      cases ended
  | some words' =>
      rw [words] at ended
      cases words' with
      | nil => cases ended
      | cons name arguments =>
          dsimp only at ended
          cases asked : (registry rule files).exitCode? name arguments with
          | some requested =>
              rw [(name_of_exitCode? asked).1]
              exact ⟨arguments, rfl⟩
          | none =>
              rw [asked] at ended
              cases found : (registry rule files).run? name arguments scope with
              | none =>
                  rw [found] at ended
                  cases ended
              | some run =>
                  rw [found] at ended
                  dsimp only at ended
                  exact absurd ended (proceed_ne_exit run streams after code)

theorem handle_concatenation {line : Text} {arguments : List Text}
    (words : Words.split line = some (Concatenation.name :: arguments)) :
    (registry rule files).handle line scope =
      proceed ((Concatenation.command rule files).run arguments scope) := by
  rw [Registry.handle, words]
  rfl

theorem handle_copy {line : Text} (copy : Words.split line = some [Concatenation.name]) :
    (registry rule files).handle line scope = proceed Concatenation.copyInput :=
  handle_concatenation copy

end Builtin

/-- Whatever the line and whatever is in the input, there is a plan that the line carries out
on all sinks, as far as the sinks can tell.  It flushes if the line concatenates. -/
theorem Plan.exists_seen_handle (rule : PathRule) (files : FileView) (line : Text)
    (scope : Variables) (input : Source) :
    exists plan : Plan, plan.FlushesIff (Concatenation.IsNamedBy line) ∧
      forall output error,
        seen ((Builtin.registry rule files).handle line scope ⟨input, output, error⟩) =
          plan.onSinks output error := by
  by_cases copy : Words.split line = some [Concatenation.name]
  · refine ⟨Concatenation.copyPlan input, ?_, ?_⟩
    · unfold Concatenation.copyPlan
      intro flow ended
      split at ended
      · exact iff_of_true rfl ⟨[], copy⟩
      · cases ended
    · intro output error
      rw [Builtin.handle_copy copy, Concatenation.seen_copyInput, Plan.seen_perform]
  · have planned : Planned ((Builtin.registry rule files).handle line scope)
        (Concatenation.IsNamedBy line) := Builtin.planned_handle line copy
    rcases planned with ⟨plan, performed, flushes⟩
    refine ⟨plan, flushes, ?_⟩
    intro output error
    rw [performed, Plan.seen_perform]

end MiniShell
