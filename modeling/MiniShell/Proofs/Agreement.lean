import MiniShell.Program
import MiniShell.Proofs.ErrorStream

namespace MiniShell
namespace Session

/-!
# Status and diagnostics

Over an error stream that never fails, a line can go in three ways, and what it
leaves on the error stream tells which.  It says nothing and has status zero, or it
says something and has status one, or it ends the shell, and then it has neither
written nor read anything.  This holds in any state of the session and whatever
becomes of the input and of the output.

There is then no status that a process could lose by taking it modulo two hundred
and fifty-six.  That can only happen to a code, and a code comes from the line.
-/

open StreamM

/-! ## The three answers -/

inductive Answer where
  /-- The line has been carried out, and it has said nothing. -/
  | success
  /-- The line has said what went wrong. -/
  | failure
  /-- The line has asked for the end of the shell. -/
  | farewell
  deriving DecidableEq, Repr

/-- The round gives this answer on streams that were like this when it began. -/
def Round.Gives (round : Round) (begun : Streams) : Answer -> Prop
  | .success =>
      round.result = .ok (.next 0) ∧ round.streams.error.stored = begun.error.stored
  | .failure =>
      round.result = .ok (.next 1) ∧
        exists said, said ≠ [] ∧ round.streams.error.stored = begun.error.stored ++ said
  | .farewell => (exists code, round.result = .ok (.exit code)) ∧ round.streams = begun

/-- The only answer that goes with a result. -/
def Answer.ofResult? : Except ShellError Flow -> Option Answer
  | .ok (.next status) => some (if status = 0 then .success else .failure)
  | .ok (.exit _) => some .farewell
  | .error _ => none

theorem Round.Gives.ofResult?_eq {round : Round} {begun : Streams} {answer : Answer}
    (gives : round.Gives begun answer) : Answer.ofResult? round.result = some answer := by
  cases answer with
  | success =>
      rw [gives.1]
      rfl
  | failure =>
      rw [gives.1]
      rfl
  | farewell =>
      rcases gives.1 with ⟨code, result⟩
      rw [result]
      rfl

/-! ## Every plan gives an answer -/

/-- Unless a plan ends the shell, the status tells whether there is anything to say. -/
theorem recovered_of_said (plan : Plan) (output : Sink) :
    recovered (plan.reached output) = .next 0 ∧ said plan output = [] ∨
      recovered (plan.reached output) = .next 1 ∧ said plan output ≠ [] ∨
      exists code, plan.reached output = .ok (.exit code) := by
  rw [said, Plan.written, Plan.reached]
  -- If the output fails, the shell speaks of that, whatever the plan.
  cases output.send plan.output plan.flushes with
  | error fault => exact .inr (.inl ⟨rfl, shown_io_ne_nil fault⟩)
  | ok value =>
      cases plan with
      | refuse error speaks => exact .inr (.inl ⟨rfl, Utf8.encode_ne_nil speaks⟩)
      | exit code => exact .inr (.inr ⟨code, rfl⟩)
      | print output diagnostics flushes =>
          cases diagnostics with
          | nil => exact .inl ⟨rfl, rfl⟩
          | cons byte diagnostics => exact .inr (.inl ⟨rfl, List.cons_ne_nil _ _⟩)
      | breakOff output fault => exact .inr (.inl ⟨rfl, shown_io_ne_nil fault⟩)

/-- A line that begins with the name of the command that ends the shell leaves everything as
it was. -/
theorem execute_exit (session : Session) (files : FileView) {line : Text}
    {arguments : List Text} (words : Words.split line = some (Builtin.exit.name :: arguments))
    {streams : Streams} (flushes : streams.error.flushFails = false) :
    session.execute files line streams =
      ⟨.ok (.exit (Builtin.requestedCode arguments)), session, streams⟩ := by
  have handled : (session.registry files).handle line session.scope streams =
      .ok (.exit (Builtin.requestedCode arguments)) streams := by
    rw [registry, Builtin.handle_exit words]
    rfl
  have attempted := (attempt_of_ok handled).trans (bind_of_ok (flush_eq .error flushes))
  rw [execute, attempted]
  rfl

variable {session : Session} {files : FileView} {line : Text} {begun : Streams}

/-- No other line ends the shell. -/
theorem words_of_result_eq_exit {code : Int}
    (ended : (session.execute files line begun).result = .ok (.exit code)) :
    exists arguments, Words.split line = some (Builtin.exit.name :: arguments) := by
  have known := (onSinks_execute session files line begun).trans (seen_attempt rfl)
  have shown := (congrArg Seen.result known).symm.trans ended
  have recovers := Except.ok.inj (unlessFault_eq_ok_iff.mp shown).2
  cases result : (session.registry files).handle line session.scope begun with
  | ok flow after =>
      rw [result] at recovers
      change flow = .exit code at recovers
      rw [recovers] at result
      exact Builtin.words_of_handle_eq_exit result
  | error error after =>
      rw [result] at recovers
      cases recovers

theorem exists_gives (unfailing : begun.error.Unfailing) :
    exists answer, (session.execute files line begun).Gives begun answer := by
  rcases session.exists_follows files line begun.input with ⟨plan, follows⟩
  have known := follows.onSinks_unfailing begun.output unfailing
  have result := congrArg Seen.result known
  have held := congrArg (fun seen => seen.error.stored) known
  rcases recovered_of_said plan begun.output with ⟨next, silent⟩ | ⟨next, speaks⟩ | ⟨code, exits⟩
  · rw [next] at result
    rw [silent] at held
    exact ⟨.success, result, held.trans (List.append_nil _)⟩
  · rw [next] at result
    exact ⟨.failure, result, _, speaks, held⟩
  · rw [exits] at result
    rcases words_of_result_eq_exit result with ⟨arguments, words⟩
    rw [session.execute_exit files words unfailing.flushes]
    exact ⟨.farewell, ⟨_, rfl⟩, rfl⟩

/-- After every line that does not ask for the end, the shell goes on. -/
theorem exists_result_eq_next (unfailing : begun.error.Unfailing)
    (stays : forall arguments, Words.split line ≠ some (Builtin.exit.name :: arguments)) :
    exists status, (session.execute files line begun).result = .ok (.next status) := by
  have given : exists answer, (session.execute files line begun).Gives begun answer :=
    exists_gives unfailing
  rcases given with ⟨answer, gives⟩
  cases answer with
  | success => exact ⟨0, gives.1⟩
  | failure => exact ⟨1, gives.1⟩
  | farewell =>
      rcases gives.1 with ⟨code, ended⟩
      rcases words_of_result_eq_exit ended with ⟨arguments, words⟩
      exact absurd words (stays arguments)

/-- What a line reports and what it leaves on the error stream say the same, over an error
stream that never fails and already holds some bytes.  Exactly one of the three answers is
given.  A process that carries out a single line ends with code zero only if the status of
the line is zero or the line begins with the name of the command that ends the shell. -/
theorem status_agrees_with_diagnostics (session : Session) (files : FileView) (line : Text)
    (input : Source) (output : Sink) (held : Bytes) :
    let begun : Streams := ⟨input, output, { stored := held }⟩
    let round := session.execute files line begun
    (∃! answer, round.Gives begun answer) ∧
    ((Program.report (Program.runLine files session line begun)).code = 0 ->
      round.result = .ok (.next 0) ∨
        exists arguments, Words.split line = some ("exit".toList :: arguments)) := by
  intro begun round
  have unfailing : begun.error.Unfailing := ⟨rfl, rfl⟩
  have answered : exists answer, round.Gives begun answer := exists_gives unfailing
  rcases answered with ⟨answer, gives⟩
  refine ⟨⟨answer, gives, ?_⟩, ?_⟩
  · intro other otherGives
    exact Option.some.inj (otherGives.ofResult?_eq.symm.trans gives.ofResult?_eq)
  · intro zero
    cases answer with
    | success => exact .inl gives.1
    | failure =>
        have one : Program.runLine files session line begun = (.code 1, round.streams) := by
          rw [Program.runLine]
          exact congrArg (fun result => (Interaction.Ending.ofResult result, round.streams))
            gives.1
        rw [one] at zero
        cases zero
    | farewell =>
        rcases gives.1 with ⟨code, result⟩
        exact .inr (words_of_result_eq_exit result)

/-- The code that the line asks for is lost. -/
example : (Program.report (Program.runLine (.ofRecords []) (start .append [])
    "exit 256".toList {})).code = 0 := by
  decide

end Session
end MiniShell
