import MiniShell.Command.Concatenation
import MiniShell.Proofs.Encoding
import MiniShell.Proofs.Streams

namespace MiniShell
namespace Concatenation

/-!
# What concatenation comes to

The command keeps a tally while it goes through its arguments: what it will
print, the diagnostics alone, and how many there are.  Here every argument is
given its outcome by itself, without a tally, and the command is compared with
`reference`, which only puts these outcomes next to each other.

The tally of the arguments read so far is the one of their outcomes, and one
more argument keeps it so.  What remains are the three ways in which a list of
outcomes is reported.  If all have failed, the text of the error is read back
from the bytes that were to be printed, and these are then the encoded
diagnostics and nothing else.
-/

/-! ## Outcomes and the reference -/

/-- The first path with anything at it, of the two at which an argument may lie.
An empty argument lies nowhere. -/
def location? (rule : PathRule) (files : FileView) (directory argument : Text) :
    Option Path :=
  if argument = [] then none
  else
    [rule.candidate (Utf8.encode directory) (Utf8.encode argument),
      Utf8.encode argument].find? files.isPresent

/-- What an argument comes to: its contents, or the words for why there are none. -/
structure Outcome where
  argument : Text
  result : Except Text Bytes

namespace Outcome

def of (rule : PathRule) (files : FileView) (directory argument : Text) : Outcome where
  argument := argument
  result :=
    match location? rule files directory argument with
    | none => .error "No such file or directory".toList
    | some path =>
        if files.isReadable path = false then .error "Permission denied".toList
        else if files.isDirectory path = true then .error "Is a directory".toList
        else
          match files.read path with
          | .error fault => .error fault.reason
          | .ok contents => .ok contents

def failed (outcome : Outcome) : Bool :=
  match outcome.result with
  | .error _ => true
  | .ok _ => false

/-- The line about an argument that has failed. -/
def diagnostic (outcome : Outcome) : Text :=
  match outcome.result with
  | .error words => outcome.argument ++ ": ".toList ++ words ++ ['\n']
  | .ok _ => []

/-- What stands in the output for an argument. -/
def block (outcome : Outcome) : Bytes :=
  match outcome.result with
  | .error _ => Utf8.encode outcome.diagnostic
  | .ok contents => contents ++ Utf8.encode ['\n']

end Outcome

/-- Concatenation as it is described: without a directory nothing happens, and
otherwise the outcomes of the arguments are put together. -/
def reference (rule : PathRule) (files : FileView) (arguments : List Text)
    (scope : Variables) (streams : Streams) : EStateM.Result ShellError Streams Int :=
  match scope.get? "PWD".toList with
  | none => .error (.undefinedVariable "PWD".toList) streams
  | some directory =>
      let outcomes := arguments.map (Outcome.of rule files directory)
      let diagnostics := outcomes.flatMap Outcome.diagnostic
      if outcomes.all Outcome.failed then .error (.fatal diagnostics) streams
      else
        .ok (if outcomes.any Outcome.failed then 1 else 0)
          { streams with
            output := streams.output.holding (outcomes.flatMap Outcome.block)
            error := streams.error.holding (Utf8.encode diagnostics) }

/-! ## One argument -/

theorem found_first (files : FileView) (paths : List Path) :
    (Lookup.first files paths).found = paths.find? files.isPresent := by
  induction paths with
  | nil => rfl
  | cons path paths ih =>
      rw [Lookup.first]
      by_cases present : files.isPresent path = true
      · rw [if_pos present, List.find?_cons_of_pos present]
      · rw [if_neg present, List.find?_cons_of_neg present]
        exact ih

theorem found_ofArgument (rule : PathRule) (files : FileView) (directory argument : Text) :
    (Lookup.ofArgument rule files directory argument).found =
      location? rule files directory argument := by
  rw [Lookup.ofArgument, found_first, PathRule.places, location?]
  cases argument with
  | nil => rfl
  | cons c argument => rfl

/-- The outcome of an argument is what reading it gives, in words. -/
theorem result_of (rule : PathRule) (files : FileView) (directory argument : Text) :
    (Outcome.of rule files directory argument).result =
      (readArgument rule files directory argument).mapError Refusal.message := by
  rw [Outcome.of, readArgument, found_ofArgument]
  cases location? rule files directory argument with
  | none => rfl
  | some path =>
      dsimp only
      rw [readPath]
      cases readable : files.isReadable path with
      | false => rfl
      | true =>
          rw [if_neg Bool.true_eq_false.mp, Bool.not_true, if_neg Bool.false_ne_true]
          by_cases isDirectory : files.isDirectory path = true
          · rw [if_pos isDirectory, if_pos isDirectory]
            rfl
          · rw [if_neg isDirectory, if_neg isDirectory]
            cases files.read path <;> rfl

/-! ## The tally -/

/-- The tally of arguments with these outcomes. -/
def Tally.ofOutcomes (outcomes : List Outcome) : Tally where
  output := outcomes.flatMap Outcome.block
  diagnostics := outcomes.flatMap Outcome.diagnostic
  failures := outcomes.countP Outcome.failed

theorem Tally.ofOutcomes_concat (outcomes : List Outcome) (outcome : Outcome) :
    Tally.ofOutcomes (outcomes ++ [outcome]) =
      { output := (Tally.ofOutcomes outcomes).output ++ outcome.block
        diagnostics := (Tally.ofOutcomes outcomes).diagnostics ++ outcome.diagnostic
        failures := (Tally.ofOutcomes outcomes).failures + if outcome.failed then 1 else 0 } := by
  rw [ofOutcomes, List.flatMap_append, List.flatMap_append, List.countP_append,
    List.flatMap_singleton, List.flatMap_singleton, List.countP_singleton]
  rfl

theorem Tally.add_ofOutcomes (rule : PathRule) (files : FileView)
    (directory argument : Text) (outcomes : List Outcome) :
    (Tally.ofOutcomes outcomes).add argument (readArgument rule files directory argument) =
      Tally.ofOutcomes (outcomes ++ [Outcome.of rule files directory argument]) := by
  have same := result_of rule files directory argument
  have named : Outcome.of rule files directory argument =
      ⟨argument, (Outcome.of rule files directory argument).result⟩ := rfl
  rw [Tally.ofOutcomes_concat, named, same]
  cases readArgument rule files directory argument with
  | ok contents =>
      change (⟨_ ++ contents ++ [Source.newline], _, _⟩ : Tally) =
        ⟨_ ++ (contents ++ [Source.newline]), _ ++ [], _⟩
      rw [List.append_assoc, List.append_nil]
      rfl
  | error refusal => rfl

theorem tally_eq_ofOutcomes (rule : PathRule) (files : FileView) (directory : Text)
    (arguments : List Text) :
    tally rule files directory arguments =
      Tally.ofOutcomes (arguments.map (Outcome.of rule files directory)) := by
  -- The arguments before the ones at hand are kept as their outcomes.
  suffices general : forall seen : List Outcome,
      arguments.foldl (fun tally argument =>
          tally.add argument (readArgument rule files directory argument))
        (Tally.ofOutcomes seen) =
      Tally.ofOutcomes (seen ++ arguments.map (Outcome.of rule files directory)) by
    exact general []
  induction arguments with
  | nil =>
      intro seen
      rw [List.map_nil, List.append_nil]
      rfl
  | cons argument arguments ih =>
      intro seen
      rw [List.foldl_cons, Tally.add_ofOutcomes, ih, List.map_cons, List.append_assoc]
      rfl

/-! ## The three reports -/

theorem flatMap_block_of_all_failed (outcomes : List Outcome)
    (allFailed : outcomes.all Outcome.failed = true) :
    outcomes.flatMap Outcome.block =
      Utf8.encode (outcomes.flatMap Outcome.diagnostic) := by
  induction outcomes with
  | nil => rfl
  | cons outcome outcomes ih =>
      rw [List.all_cons, Bool.and_eq_true] at allFailed
      have block : outcome.block = Utf8.encode outcome.diagnostic := by
        have failed := allFailed.1
        rcases outcome with ⟨argument, contents | words⟩
        · rfl
        · cases failed
      rw [List.flatMap_cons, List.flatMap_cons, Utf8.encode_append, block, ih allFailed.2]

/-- Every diagnostic is written, and it makes no difference that an empty text is not. -/
theorem showDiagnostics_eq (streams : Streams) (unfailing : streams.error.Unfailing)
    (diagnostics : Text) :
    showDiagnostics diagnostics streams =
      .ok () { streams with error := streams.error.holding (Utf8.encode diagnostics) } := by
  cases diagnostics with
  | nil =>
      rw [Utf8.encode_nil, Sink.holding_nil]
      rfl
  | cons c diagnostics =>
      have written := StreamM.write_eq .error unfailing (Utf8.encode (c :: diagnostics))
      change (StreamM.writeError (Utf8.encode (c :: diagnostics)) >>= fun _ =>
        StreamM.flushError) streams = _
      rw [StreamM.bind_of_ok written]
      exact StreamM.flush_eq .error unfailing.flushes

theorem report_of_all_failed {streams : Streams} (outcomes : List Outcome)
    (allFailed : outcomes.all Outcome.failed = true) :
    report outcomes.length (Tally.ofOutcomes outcomes) streams =
      .error (.fatal (outcomes.flatMap Outcome.diagnostic)) streams := by
  have failures : (Tally.ofOutcomes outcomes).failures = outcomes.length :=
    List.countP_eq_length.mpr (List.all_eq_true.mp allFailed)
  have text : Utf8.decodeLossy (Tally.ofOutcomes outcomes).output =
      outcomes.flatMap Outcome.diagnostic := by
    rw [Tally.ofOutcomes, flatMap_block_of_all_failed outcomes allFailed,
      Utf8.decodeLossy_encode]
  rw [report, if_pos failures, text]
  rfl

theorem Tally.failures_ne_length {outcomes : List Outcome}
    (notAll : outcomes.all Outcome.failed = false) :
    (ofOutcomes outcomes).failures ≠ outcomes.length := by
  intro same
  have allFailed := List.all_eq_true.mpr (List.countP_eq_length.mp same)
  rw [notAll] at allFailed
  cases allFailed

theorem report_of_not_all_failed {streams : Streams} (outcomes : List Outcome)
    (output : streams.output.Unfailing) (error : streams.error.Unfailing)
    (notAll : outcomes.all Outcome.failed = false) :
    report outcomes.length (Tally.ofOutcomes outcomes) streams =
      .ok (if outcomes.any Outcome.failed then 1 else 0)
        { streams with
          output := streams.output.holding (outcomes.flatMap Outcome.block)
          error := streams.error.holding
            (Utf8.encode (outcomes.flatMap Outcome.diagnostic)) } := by
  have status : (0 < (Tally.ofOutcomes outcomes).failures) ↔
      outcomes.any Outcome.failed = true := by
    rw [List.any_eq_true]
    exact List.countP_pos_iff
  let printed : Streams :=
    { streams with output := streams.output.holding (outcomes.flatMap Outcome.block) }
  have wrote : StreamM.writeOutput (Tally.ofOutcomes outcomes).output streams =
      .ok () printed := StreamM.write_eq .output output _
  have flushed : StreamM.flushOutput printed = .ok () printed :=
    StreamM.flush_eq .output (output.holding _).flushes
  have shown := showDiagnostics_eq printed error (Tally.ofOutcomes outcomes).diagnostics
  simp only [status, report, if_neg (Tally.failures_ne_length notAll)]
  rw [StreamM.bind_of_ok wrote, StreamM.bind_of_ok flushed]
  exact StreamM.bind_of_ok shown

theorem run_of_ne_nil (rule : PathRule) (files : FileView) {arguments : List Text}
    (given : arguments ≠ []) (scope : Variables) :
    (command rule files).run arguments scope = concatenate rule files arguments scope := by
  cases arguments with
  | nil => exact absurd rfl given
  | cons argument arguments => rfl

/-- In a tracked directory, the outcomes of the arguments decide. -/
theorem run_of_tracked (rule : PathRule) (files : FileView) {arguments : List Text}
    (given : arguments ≠ []) {scope : Variables} {directory : Text}
    (tracked : scope.get? "PWD".toList = some directory) (streams : Streams)
    (output : streams.output.Unfailing) (error : streams.error.Unfailing) :
    let outcomes := arguments.map (Outcome.of rule files directory)
    (command rule files).run arguments scope streams =
      if outcomes.all Outcome.failed then
        .error (.fatal (outcomes.flatMap Outcome.diagnostic)) streams
      else
        .ok (if outcomes.any Outcome.failed then 1 else 0)
          { streams with
            output := streams.output.holding (outcomes.flatMap Outcome.block)
            error := streams.error.holding
              (Utf8.encode (outcomes.flatMap Outcome.diagnostic)) } := by
  have found : scope.directory = .ok directory := by
    rw [Variables.directory, Variables.get, Variables.directoryName, tracked]
  have lifted : StreamM.lift scope.directory streams = .ok directory streams := by
    rw [found]
    rfl
  rw [run_of_ne_nil rule files given, concatenate, StreamM.bind_of_ok lifted, tally_eq_ofOutcomes,
    ← List.length_map (Outcome.of rule files directory)]
  dsimp only
  generalize arguments.map (Outcome.of rule files directory) = outcomes
  cases allFailed : outcomes.all Outcome.failed with
  | true =>
      rw [if_pos rfl]
      exact report_of_all_failed outcomes allFailed
  | false =>
      rw [if_neg Bool.false_ne_true]
      exact report_of_not_all_failed outcomes output error allFailed

/-- On sinks that never fail, concatenation is what the outcomes of its arguments make
of it. -/
theorem run_eq_reference (rule : PathRule) (files : FileView) (arguments : List Text)
    (scope : Variables) (streams : Streams) (given : arguments ≠ [])
    (output : streams.output.Unfailing) (error : streams.error.Unfailing) :
    (command rule files).run arguments scope streams =
      reference rule files arguments scope streams := by
  rw [reference]
  cases held : scope.get? "PWD".toList with
  | none =>
      have missing : scope.directory = .error (.undefinedVariable "PWD".toList) := by
        rw [Variables.directory, Variables.get, Variables.directoryName, held]
      rw [run_of_ne_nil rule files given, concatenate, missing]
      rfl
  | some directory => exact run_of_tracked rule files given held streams output error

/-- Contents, a directory and a missing file. -/
theorem run_contents_and_refusals :
    (command .replaceFinal (.ofRecords
        [{ path := Utf8.encode "/w/a".toList, contents := .ok (Utf8.encode "hi".toList) },
          { path := Utf8.encode "/w/sub".toList, isDirectory := true }])).run
      ["a".toList, "sub".toList, "b".toList] ⟨[("PWD".toList, "/w/".toList)]⟩ {} =
    .ok 1
      { output.stored :=
          Utf8.encode "hi\nsub: Is a directory\nb: No such file or directory\n".toList
        error.stored :=
          Utf8.encode "sub: Is a directory\nb: No such file or directory\n".toList } :=
  (run_eq_reference _ _ _ _ _ (by decide) ⟨rfl, rfl⟩ ⟨rfl, rfl⟩).trans (by rfl)

end Concatenation
end MiniShell
