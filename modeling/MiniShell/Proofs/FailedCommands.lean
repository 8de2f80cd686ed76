import MiniShell.Command.Consumption
import MiniShell.Proofs.Truncation

namespace MiniShell

/-!
# What a failed command leaves in the output

A command that cannot be carried out fails before it writes, and then the output
is as it was.  A command that fails because of a stream is another matter.  It has
already stored the beginning of what it prints, and nothing is taken back.  So the
output of a failed command is untouched exactly if there was nothing to print or
no room to print it in.

What a command prints is what it stores in an output without a bound, and like all
else it is read off the plan that the command carries out.
-/

open StreamM

/-- If the command fails on these streams, it has stored nothing in the output. -/
def Command.FailsWithoutOutput (command : Command) (arguments : List Text) (scope : Variables)
    (streams : Streams) : Prop :=
  forall error left, command.run arguments scope streams = .error error left ->
    left.output.stored = streams.output.stored

/-- Nothing begins a sequence only if there is nothing or no room. -/
theorem beginning_eq_nil_iff (limit : Option Nat) (bytes : Bytes) :
    beginning limit bytes = [] ↔ bytes = [] ∨ limit = some 0 := by
  cases limit with
  | none => simp [beginning]
  | some limit => simp [beginning, List.take_eq_nil_iff, or_comm]

/-! ## Commands and plans -/

namespace StreamM

/-- What is seen of going on with the status of a command. -/
theorem seen_proceed (run : StreamM Int) (streams : Streams) :
    seen (proceed run streams) =
      ⟨(seen (run streams)).result.map Flow.next, (seen (run streams)).output,
        (seen (run streams)).error⟩ := by
  cases ran : run streams with
  | ok status left =>
      rw [proceed, bind_of_ok ran]
      rfl
  | error error left =>
      rw [proceed, bind_of_error ran]
      rfl

/-- A computation whose bytes are sent first fails because of the sink, or by itself. -/
theorem eq_error_of_unlessFault {α : Type} {sent : Except Fault Unit}
    {ending : Except ShellError α} {error : ShellError}
    (failed : unlessFault sent ending = .error error) (notIo : forall fault, error ≠ .io fault) :
    ending = .error error := by
  cases sent with
  | ok value => exact failed
  | error fault =>
      cases failed
      exact absurd rfl (notIo fault)

theorem output_after (run : StreamM Int) (streams : Streams) :
    (after (run streams)).output = (seen (proceed run streams)).output := by
  rw [seen_proceed]
  cases run streams <;> rfl

end StreamM

namespace Builtin

variable {rule : PathRule} {files : FileView} {command : Command}

theorem eq_concatenation_of_name (member : command ∈ (registry rule files).commands)
    (called : command.name = Concatenation.name) : command = Concatenation.command rule files := by
  simp only [registry, List.mem_cons, List.not_mem_nil, or_false] at member
  rcases member with same | same | same | same | same
  · exact same
  all_goals
    subst same
    exact absurd called (by decide)

/-- With this input there is a plan that the command carries out, as far as the sinks can tell. -/
theorem exists_seen_proceed_run (member : command ∈ (registry rule files).commands)
    (arguments : List Text) (scope : Variables) (input : Source) :
    exists plan : Plan, forall output error,
      seen (proceed (command.run arguments scope) ⟨input, output, error⟩) =
        plan.onSinks output error := by
  by_cases notCopy : command.name = Concatenation.name -> arguments ≠ []
  · rcases planned_of_mem member notCopy with ⟨plan, performed, -⟩
    refine ⟨plan, ?_⟩
    intro output error
    rw [performed, Plan.seen_perform]
  · rcases not_forall.mp notCopy with ⟨called, empty⟩
    rw [eq_concatenation_of_name member called, not_not.mp empty]
    refine ⟨Concatenation.copyPlan input, ?_⟩
    intro output error
    exact (Concatenation.seen_copyInput ⟨input, output, error⟩).trans (Plan.seen_perform _ _)

end Builtin

/-- A plan that fails with an error which no stream has caused leaves both sinks as they were. -/
theorem Plan.onSinks_of_result_eq_error {plan : Plan} {output error : Sink}
    {failure : ShellError} (failed : (plan.onSinks output error).result = .error failure)
    (notIo : forall fault, failure ≠ .io fault) :
    plan.onSinks output error = ⟨.error failure, output, error⟩ := by
  have reached := eq_error_of_unlessFault failed notIo
  have ended := eq_error_of_unlessFault reached notIo
  cases plan with
  | refuse refusal speaks =>
      rw [(silent_refuse refusal speaks).onSinks_eq, ended]
  | breakOff bytes fault =>
      cases ended
      exact absurd rfl (notIo fault)
  | _ => cases ended

/-- Exactly when a command that fails has left the output alone.  It has done so if there is
nothing that it prints on streams with room for everything, or if there is no room at all.  Only
an error of a stream can come after output: any other error leaves both sinks as they were. -/
theorem Builtin.failsWithoutOutput_iff (rule : PathRule) (files : FileView) {command : Command}
    (member : command ∈ (registry rule files).commands) (arguments : List Text)
    (scope : Variables) (streams : Streams) :
    let printed := (after (command.run arguments scope { input := streams.input })).output.stored
    (command.FailsWithoutOutput arguments scope streams ↔
      (exists status left, command.run arguments scope streams = .ok status left) ∨
        printed = [] ∨ streams.output.room? = some 0) ∧
    forall error left, command.run arguments scope streams = .error error left ->
      (forall fault, error ≠ .io fault) ->
      left.output = streams.output ∧ left.error = streams.error := by
  intro printed
  rcases exists_seen_proceed_run member arguments scope streams.input with ⟨plan, follows⟩
  have whole : printed = plan.output := by
    dsimp only [printed]
    rw [output_after, follows]
    rfl
  have stored : (after (command.run arguments scope streams)).output.stored =
      streams.output.stored ++ beginning streams.output.room? printed := by
    rw [output_after, follows, whole, ← Sink.fitting_eq_beginning]
    rfl
  constructor
  · rw [← beginning_eq_nil_iff]
    constructor
    · intro clean
      cases ran : command.run arguments scope streams with
      | ok status left => exact .inl ⟨status, left, rfl⟩
      | error error left =>
          rw [ran] at stored
          have same := (clean error left ran).symm.trans stored
          exact .inr (List.self_eq_append_right.mp same)
    · rintro (⟨status, left, ran⟩ | nothing) error left' failed
      · rw [ran] at failed
        cases failed
      · rw [failed, nothing, List.append_nil] at stored
        exact stored
  · intro error left failed notIo
    have known := follows streams.output streams.error
    rw [seen_proceed, failed] at known
    have same := Plan.onSinks_of_result_eq_error (congrArg Seen.result known).symm notIo
    rw [same] at known
    exact ⟨congrArg Seen.output known, congrArg Seen.error known⟩

namespace Builtin

/-- Without a tracked directory there is nothing to print, so nothing is lost on a small output. -/
theorem pwd_fails_without_output :
    let streams : Streams := { output := { capacity := some 1 } }
    pwd ∈ (registry .append (.ofRecords [])).commands ∧
      pwd.run [] {} streams = .error (.undefinedVariable "PWD".toList) streams ∧
      pwd.FailsWithoutOutput [] {} streams := by
  intro streams
  have member : pwd ∈ (registry .append (.ofRecords [])).commands :=
    .tail _ (.tail _ (.head _))
  have known := failsWithoutOutput_iff .append (.ofRecords []) member [] {} streams
  exact ⟨member, rfl, known.1.mpr (.inr (.inl rfl))⟩

/-- A line has been copied before the input fails, and it stays in the output. -/
theorem copy_fails_after_output :
    ¬ (Concatenation.command .replaceFinal (.ofRecords [])).FailsWithoutOutput [] {}
      { input := ⟨Utf8.encode "a\nb".toList, some (.custom "gone".toList)⟩ } := by
  intro clean
  let streams : Streams :=
    { input := ⟨Utf8.encode "a\nb".toList, some (.custom "gone".toList)⟩ }
  have copied := Concatenation.seen_copyInput streams
  rw [Plan.seen_perform, seen_proceed] at copied
  cases ran : Concatenation.copyInput streams with
  | ok status left =>
      rw [ran] at copied
      cases congrArg Seen.result copied
  | error error left =>
      rw [ran] at copied
      have stored := congrArg (fun seen => seen.output.stored) copied
      exact absurd ((clean error left ran).symm.trans stored) (by decide)

end Builtin
end MiniShell
