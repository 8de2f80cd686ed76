import MiniShell.Proofs.ErrorStream
import MiniShell.Proofs.Rendering
import MiniShell.Proofs.SessionVariables

namespace MiniShell

/-!
# Lines that concatenate

When all arguments have failed, the command prints nothing.  It fails, and the
session shows the error.  When only some have failed, the command itself writes
the diagnostics, and repeats them in the output.  What a line leaves behind can
still be said in one way: the diagnostics are on the error stream, whoever has
written them, and the status tells whether there are any.

Therefore the line for two lists of arguments is made up of the lines for each
of them.  Only the output of a list that has failed altogether has to be looked
for on the error stream.
-/

open StreamM

/-! ## What a line leaves behind -/

namespace Concatenation

/-- What is printed for the outcomes.  Nothing is printed if all have failed. -/
def printed (outcomes : List Outcome) : Bytes :=
  if outcomes.all Outcome.failed then [] else outcomes.flatMap Outcome.block

/-- The status of a line with these outcomes. -/
def status (outcomes : List Outcome) : Int :=
  if outcomes.any Outcome.failed then 1 else 0

theorem status_append (first second : List Outcome) :
    status (first ++ second) = max (status first) (status second) := by
  rw [status, status, status, List.any_append]
  cases first.any Outcome.failed <;> cases second.any Outcome.failed <;> rfl

theorem status_of_all_failed {outcomes : List Outcome} (some : outcomes ≠ [])
    (allFailed : outcomes.all Outcome.failed = true) : status outcomes = 1 := by
  rcases List.exists_mem_of_ne_nil outcomes some with ⟨outcome, member⟩
  have failed := List.all_eq_true.mp allFailed outcome member
  rw [status, if_pos (List.any_eq_true.mpr ⟨outcome, member, failed⟩)]

end Concatenation

namespace Session

open Concatenation

/-- What a round leaves behind that has come to these outcomes. -/
structure Round.Leaves (round : Round) (outcomes : List Outcome) : Prop where
  result : round.result = .ok (.next (status outcomes))
  output : round.streams.output.stored = printed outcomes
  error : round.streams.error.stored = Utf8.encode (outcomes.flatMap Outcome.diagnostic)

/-- Every line that concatenates leaves behind what its outcomes say, over streams that never
fail. -/
theorem leaves_execute {session : Session} {line marker : Text} {arguments : List Text}
    (words : Words.split line = some (Concatenation.name :: arguments))
    (given : arguments ≠ [])
    (tracked : session.scope.get? Variables.directoryName = some marker)
    (files : FileView) (input : Source) :
    (session.execute files line { input := input }).Leaves
      (arguments.map (Outcome.of session.rule files marker)) := by
  have unfailing : ({} : Sink).Unfailing := ⟨rfl, rfl⟩
  have lookup : session.scope.get? "PWD".toList = some marker := tracked
  have ran := run_of_tracked session.rule files given lookup { input := input } unfailing
    unfailing
  dsimp only at ran
  have shows := session.onSinks_execute_unfailing files line input {} unfailing
  have nonempty : arguments.map (Outcome.of session.rule files marker) ≠ [] :=
    mt List.map_eq_nil_iff.mp given
  rw [registry, Builtin.handle_concatenation words] at shows
  generalize arguments.map (Outcome.of session.rule files marker) = outcomes at nonempty ran
  cases allFailed : outcomes.all Outcome.failed with
  | true =>
      -- The command has failed with its diagnostics, and the session shows them.
      rw [allFailed, if_pos rfl] at ran
      rw [proceed, bind_of_error ran] at shows
      have one := status_of_all_failed nonempty allFailed
      have nothing : printed outcomes = [] := if_pos allFailed
      exact ⟨one ▸ congrArg Seen.result shows,
        (congrArg (fun seen => seen.output.stored) shows).trans nothing.symm,
        congrArg (fun seen => seen.error.stored) shows⟩
  | false =>
      rw [allFailed, if_neg Bool.false_ne_true] at ran
      rw [proceed, bind_of_ok ran] at shows
      have all : printed outcomes = outcomes.flatMap Outcome.block :=
        if_neg (Bool.eq_false_iff.mp allFailed)
      exact ⟨congrArg Seen.result shows,
        (congrArg (fun seen => seen.output.stored) shows).trans all.symm,
        (congrArg (fun seen => seen.error.stored) shows).trans (List.append_nil _)⟩

/-! ## Two lists of arguments -/

namespace Round.Leaves

variable {round one other whole : Round} {outcomes first second : List Outcome}

/-- What stands for the outcomes in a longer output can be seen: on the error stream if all
have failed, and otherwise in the output. -/
theorem block_eq (leaves : round.Leaves outcomes) :
    (if outcomes.all Outcome.failed then round.streams.error.stored
      else round.streams.output.stored) = outcomes.flatMap Outcome.block := by
  rw [leaves.error, leaves.output, printed]
  split
  · next allFailed => exact (flatMap_block_of_all_failed outcomes allFailed).symm
  · rfl

theorem error_append (firstLeaves : one.Leaves first) (secondLeaves : other.Leaves second)
    (leaves : whole.Leaves (first ++ second)) :
    whole.streams.error.stored = one.streams.error.stored ++ other.streams.error.stored := by
  rw [leaves.error, firstLeaves.error, secondLeaves.error, List.flatMap_append,
    Utf8.encode_append]

theorem output_append (firstLeaves : one.Leaves first) (secondLeaves : other.Leaves second)
    (leaves : whole.Leaves (first ++ second)) :
    whole.streams.output.stored =
      if (first ++ second).all Outcome.failed then []
      else
        (if first.all Outcome.failed then one.streams.error.stored
          else one.streams.output.stored) ++
        (if second.all Outcome.failed then other.streams.error.stored
          else other.streams.output.stored) := by
  rw [firstLeaves.block_eq, secondLeaves.block_eq, leaves.output, printed, List.flatMap_append]

end Round.Leaves

/-- A line with two lists of arguments, at any point of a session and over streams that never
fail, does what the lines with one of the lists do.  Its diagnostics are those of the one and
of the other, its status is the larger one, and its output has what stands for the first list
and then what stands for the second.  For a list of which every argument fails this is what
its own line leaves on the error stream, and nothing is printed if both are such lists. -/
theorem concatenation_splits (rule : PathRule) (directory : Path) (steps : List Step)
    (files : FileView) (input : Source) {first second : List Text} (firstGiven : first ≠ [])
    (secondGiven : second ≠ []) {firstLine secondLine wholeLine : Text}
    (firstWritten : Words.Renders ("cat".toList :: first) firstLine)
    (secondWritten : Words.Renders ("cat".toList :: second) secondLine)
    (wholeWritten : Words.Renders ("cat".toList :: (first ++ second)) wholeLine) :
    let session := (start rule directory).after steps
    let fails := fun argument =>
      (Outcome.of session.rule files (Variables.directoryMarker directory) argument).failed
    let one := session.execute files firstLine { input := input }
    let other := session.execute files secondLine { input := input }
    let whole := session.execute files wholeLine { input := input }
    let block := fun (arguments : List Text) (round : Round) =>
      if arguments.all fails then round.streams.error.stored else round.streams.output.stored
    (exists status status',
      one.result = .ok (.next status) ∧ other.result = .ok (.next status') ∧
        whole.result = .ok (.next (max status status'))) ∧
    whole.streams.error.stored = one.streams.error.stored ++ other.streams.error.stored ∧
    whole.streams.output.stored =
      if (first ++ second).all fails then [] else block first one ++ block second other := by
  intro session fails one other whole block
  have tracked := (holds_after rule directory steps).directory
  have bothGiven := List.append_ne_nil_of_left_ne_nil firstGiven second
  have firstLeaves := leaves_execute (Words.split_of_renders firstWritten) firstGiven tracked
    files input
  have secondLeaves := leaves_execute (Words.split_of_renders secondWritten) secondGiven tracked
    files input
  have leaves := leaves_execute (Words.split_of_renders wholeWritten) bothGiven tracked
    files input
  rw [List.map_append] at leaves
  refine ⟨⟨_, _, firstLeaves.result, secondLeaves.result, ?_⟩,
    firstLeaves.error_append secondLeaves leaves, ?_⟩
  · rw [← status_append]
    exact leaves.result
  · have output := firstLeaves.output_append secondLeaves leaves
    rw [← List.map_append, List.all_map, List.all_map, List.all_map] at output
    exact output

/-- A list that can be read, in front of one that cannot. -/
theorem concatenation_splits_before_failures :
    let files : FileView :=
      .ofRecords [{ path := Utf8.encode "/w/a".toList, contents := .ok (Utf8.encode "hi".toList) }]
    let session := (start .append (Utf8.encode "/w".toList)).after []
    let one := session.execute files "cat a".toList {}
    let other := session.execute files "cat b 'c d'".toList {}
    let whole := session.execute files "cat a b 'c d'".toList {}
    Words.Renders ["cat".toList, "a".toList] "cat a".toList ∧
    Words.Renders ["cat".toList, "b".toList, "c d".toList] "cat b 'c d'".toList ∧
    Words.Renders ["cat".toList, "a".toList, "b".toList, "c d".toList]
      "cat a b 'c d'".toList ∧
    whole.streams.error.stored = one.streams.error.stored ++ other.streams.error.stored ∧
    whole.streams.output.stored = one.streams.output.stored ++ other.streams.error.stored := by
  intro files session one other whole
  have cat : Words.Spelling "cat".toList "cat".toList :=
    Words.spelling_self (by decide) (by decide) (by decide)
  have a : Words.Spelling ['a'] ['a'] :=
    Words.spelling_self (by decide) (by decide) (by decide)
  have b : Words.Spelling ['b'] ['b'] :=
    Words.spelling_self (by decide) (by decide) (by decide)
  have piece : Words.Piece "c d".toList "'c d'".toList := .single (by decide)
  have cd : Words.Spelling "c d".toList "'c d'".toList := .intro piece (by decide) .nil
  have first : Words.Renders ["cat".toList, "a".toList] "cat a".toList :=
    .cons .nil cat rfl (.last .nil a)
  have second : Words.Renders ["cat".toList, "b".toList, "c d".toList]
      "cat b 'c d'".toList := .cons .nil cat rfl (.cons .nil b rfl (.last .nil cd))
  have both : Words.Renders ["cat".toList, "a".toList, "b".toList, "c d".toList]
      "cat a b 'c d'".toList :=
    .cons .nil cat rfl (.cons .nil a rfl (.cons .nil b rfl (.last .nil cd)))
  have known := concatenation_splits .append (Utf8.encode "/w".toList) [] files {}
    (by decide) (by decide) first second both
  have marker : Variables.directoryMarker (Utf8.encode "/w".toList) = "/w/".toList := by
    rw [Variables.directoryMarker, Utf8.decodeLossy_encode]
    rfl
  rw [marker] at known
  exact ⟨first, second, both, known.2.1, known.2.2⟩

end Session
end MiniShell
