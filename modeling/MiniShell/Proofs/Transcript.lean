import MiniShell.Interaction
import MiniShell.Proofs.Encoding
import MiniShell.Proofs.LineInput

namespace MiniShell

/-!
# The transcript of an input

A shell that takes its lines from the input shares this input with the commands that
it runs.  Nevertheless it does what one would write down with the whole input at
hand: cut it into lines, carry them out one after the other, each on empty sinks, and
put together what they have written.  Only a line that copies the input disturbs
this, and then there are no more lines.

The transcript is written down line by line.  That the shell follows it is shown by
induction on the lines, for any sinks that never fail and any status of the line
before.
-/

/-! ## The lines of an input -/

namespace Source

/-- The first line is what is read first, and the other lines are those of the rest. -/
theorem splitLine_of_lines_eq_cons {bytes line : Bytes} {later : List Bytes}
    (cut : lines bytes = line :: later) :
    splitLine bytes = (line, later.flatten) ∧ lines later.flatten = later := by
  induction bytes generalizing line later with
  | nil => cases cut
  | cons byte rest ih =>
      simp only [lines] at cut
      simp only [splitLine]
      by_cases ends : byte = newline
      · rw [if_pos ends] at cut ⊢
        cases cut
        rw [flatten_lines]
        exact ⟨rfl, rfl⟩
      · rw [if_neg ends] at cut ⊢
        cases others : lines rest with
        | nil =>
            have empty : rest = [] := by
              rw [← flatten_lines rest, others]
              rfl
            rw [others] at cut
            cases cut
            rw [empty]
            exact ⟨rfl, rfl⟩
        | cons first others' =>
            rw [others] at cut
            cases cut
            rcases ih others with ⟨split, same⟩
            rw [split]
            exact ⟨rfl, same⟩

theorem ne_nil_of_mem_lines {bytes line : Bytes} (member : line ∈ lines bytes) : line ≠ [] := by
  induction bytes generalizing line with
  | nil => cases member
  | cons byte rest ih =>
      simp only [lines] at member
      split at member
      · rcases List.mem_cons.mp member with same | later
        · rw [same]
          exact List.cons_ne_nil _ _
        · exact ih later
      · split at member
        · rw [List.mem_singleton.mp member]
          exact List.cons_ne_nil _ _
        · next first others same =>
            rcases List.mem_cons.mp member with same' | later
            · rw [same']
              exact List.cons_ne_nil _ _
            · exact ih (same ▸ List.mem_cons_of_mem _ later)

end Source

/-! ## Lines without backspaces -/

namespace Grapheme

theorem foldlM_add? {clusters : List Text} (absent : [backspace] ∉ clusters) (typed : Typed) :
    (clusters.foldlM Typed.add? typed).map Typed.reversed =
      some (clusters.flatten.reverse ++ typed.reversed) := by
  induction clusters generalizing typed with
  | nil => rfl
  | cons cluster clusters ih =>
      have different := List.ne_of_not_mem_cons absent
      have absentLater := List.not_mem_of_not_mem_cons absent
      have added : typed.add? cluster =
          some ⟨cluster.reverse ++ typed.reversed, erasedSize cluster :: typed.sizes⟩ := by
        rw [Typed.add?, if_neg (Ne.symm different)]
      rw [List.foldlM_cons, added]
      refine (ih absentLater _).trans ?_
      rw [List.flatten_cons, List.reverse_append, List.append_assoc]

/-- Without a backspace, what was typed is what was meant. -/
theorem applyBackspaces?_of_not_mem {text : Text} (absent : backspace ∉ text) :
    applyBackspaces? text = some text := by
  have noCluster : [backspace] ∉ clusters text := by
    intro member
    apply absent
    rw [← flatten_clusters text]
    exact List.mem_flatten_of_mem member (List.mem_singleton_self backspace)
  have typed := foldlM_add? noCluster {}
  rw [flatten_clusters, List.append_nil] at typed
  rcases Option.map_eq_some_iff.mp typed with ⟨final, folded, reversed⟩
  rw [applyBackspaces?, folded, Option.map_some, reversed, List.reverse_reverse]

end Grapheme

namespace Interaction

open Session

/-! ## Transcripts -/

/-- How a line bears on the rest of the input. -/
inductive Bearing where
  | asksForEnd (code : Int)
  | copiesRest
  | leavesRest
  deriving DecidableEq, Repr

def Bearing.of (line : Text) : Bearing :=
  match Words.split line with
  | some (name :: arguments) =>
      if name = "exit".toList then .asksForEnd (Builtin.requestedCode arguments)
      else if name = "cat".toList ∧ arguments = [] then .copiesRest
      else .leavesRest
  | _ => .leavesRest

/-- Does the shell go on after such a line? -/
def Bearing.goesOn : Bearing -> Bool
  | .asksForEnd _ => false
  | _ => true

/-- Why no more lines are carried out. -/
inductive Stop where
  | inputEnded
  /-- The last line has copied what was left of the input. -/
  | inputCopied
  | requested (code : Int)
  /-- The next line is not well formed. -/
  | notText
  /-- The next line cannot be edited. -/
  | notEditable
  deriving DecidableEq, Repr

structure Transcript where
  /-- The lines after which the shell has gone on, each on empty sinks. -/
  rounds : List Round
  stop : Stop
  /-- What nobody has read. -/
  left : Bytes

namespace Transcript

/-- One more line, before the others. -/
def after (told : Transcript) (round : Round) : Transcript :=
  { told with rounds := round :: told.rounds }

/-- The status of the last line, or of the line before if there is none. -/
def statusAfter (told : Transcript) (status : Int) : Int :=
  (lastStatus? told.rounds).getD status

def endingAfter (told : Transcript) (status : Int) : Ending :=
  match told.stop with
  | .inputEnded => .code (told.statusAfter status)
  | .inputCopied => .code 0
  | .requested code => .code code
  | .notText => .failure (unreadable Interaction.notText)
  | .notEditable => .breakdown

/-- The status of the last line, and zero if there is none. -/
def status (told : Transcript) : Int :=
  told.statusAfter 0

def ending (told : Transcript) : Ending :=
  told.endingAfter 0

def output (told : Transcript) : Bytes :=
  told.rounds.flatMap fun round => round.streams.output.stored

def error (told : Transcript) : Bytes :=
  told.rounds.flatMap fun round => round.streams.error.stored

def streams (told : Transcript) : Streams :=
  ⟨⟨told.left, none⟩, { stored := told.output }, { stored := told.error }⟩

end Transcript

/-- The transcript of a session with these lines, if this is what is meant by what is typed. -/
def transcript (files : FileView) (meaning : Text -> Option Text) (session : Session) :
    List Bytes -> Transcript
  | [] => ⟨[], .inputEnded, []⟩
  | bytes :: later =>
      match Utf8.decode? bytes with
      | none => ⟨[], .notText, later.flatten⟩
      | some typed =>
          match meaning typed with
          | none => ⟨[], .notEditable, later.flatten⟩
          | some line =>
              let round := session.execute files line { input := { pending := later.flatten } }
              match Bearing.of line with
              | .asksForEnd code => ⟨[], .requested code, later.flatten⟩
              | .copiesRest => Transcript.after ⟨[], .inputCopied, []⟩ round
              | .leavesRest => (transcript files meaning round.session later).after round

namespace Bearing

variable {line : Text}

theorem words_of_asksForEnd {code : Int} (asks : of line = .asksForEnd code) :
    exists arguments, Words.split line = some (Builtin.exit.name :: arguments) ∧
      code = Builtin.requestedCode arguments := by
  unfold of at asks
  split at asks
  · next name arguments words =>
      split at asks
      · next same =>
          cases asks
          rw [words, same]
          exact ⟨arguments, rfl, rfl⟩
      · split at asks <;> cases asks
  · cases asks

theorem words_of_copiesRest (copies : of line = .copiesRest) :
    Words.split line = some [Concatenation.name] := by
  unfold of at copies
  split at copies
  · next name arguments words =>
      split at copies
      · cases copies
      · split at copies
        · next same =>
            rw [words, same.1, same.2]
            rfl
        · cases copies
  · cases copies

theorem words_of_leavesRest (leaves : of line = .leavesRest) :
    Words.split line ≠ some [Concatenation.name] := by
  intro copy
  rw [of, copy] at leaves
  cases leaves

theorem words_of_goesOn (goesOn : (of line).goesOn = true) (arguments : List Text) :
    Words.split line ≠ some (Builtin.exit.name :: arguments) := by
  intro words
  rw [of, words] at goesOn
  cases goesOn

end Bearing

/-! ## Following a transcript -/

namespace Transcript

/-- How the shell ends with this transcript, and its streams, if the line before had this
status and these are the sinks. -/
def following (told : Transcript) (status : Int) (output error : Sink) : Ending × Streams :=
  (told.endingAfter status,
    ⟨⟨told.left, none⟩, output.holding told.output, error.holding told.error⟩)

theorem following_of_no_rounds {told : Transcript} (none : told.rounds = []) (status : Int)
    (output error : Sink) :
    told.following status output error =
      (told.endingAfter status, ⟨⟨told.left, .none⟩, output, error⟩) := by
  rw [following, Transcript.output, Transcript.error, none, List.flatMap_nil, List.flatMap_nil,
    Sink.holding_nil, Sink.holding_nil]

/-- Among the others, the status of the first line is that of the line before. -/
theorem statusAfter_after {told : Transcript} {round : Round} {status : Int}
    (next : round.result = .ok (.next status)) (before : Int) :
    (told.after round).statusAfter before = told.statusAfter status := by
  have known : round.status? = some status := by
    rw [Round.status?, next]
  rw [statusAfter, after, lastStatus?_cons, known, statusAfter]
  cases lastStatus? told.rounds <;> rfl

/-- The first line hands its status and what it has written on to the others. -/
theorem following_after {told : Transcript} {round : Round} {status : Int}
    (next : round.result = .ok (.next status)) (before : Int) (output error : Sink) :
    (told.after round).following before output error =
      told.following status (output.holding round.streams.output.stored)
        (error.holding round.streams.error.stored) := by
  have sameEnding : (told.after round).endingAfter before = told.endingAfter status := by
    rw [endingAfter, statusAfter_after next]
    rfl
  rw [following, sameEnding, following, Sink.holding_holding, Sink.holding_holding]
  rfl

end Transcript

/-! ## Lines after which the shell goes on -/

/-- After the line the shell goes on, and the status is in the variables. -/
def LeavesStatus (round : Round) (status : Int) : Prop :=
  round.result = .ok (.next status) ∧
    round.session.scope.get? Variables.statusName = some (Decimal.ofInt status)

theorem exists_leavesStatus (session : Session) (files : FileView) {line : Text}
    (goesOn : (Bearing.of line).goesOn = true) (input : Source) :
    exists status, LeavesStatus (session.execute files line { input := input }) status := by
  have given : exists status,
      (session.execute files line { input := input }).result = .ok (.next status) :=
    exists_result_eq_next ⟨rfl, rfl⟩ (Bearing.words_of_goesOn goesOn)
  rcases given with ⟨status, next⟩
  refine ⟨status, next, ?_⟩
  rw [session_execute, Round.status?, next]
  exact Variables.get?_set_self _ _ _

/-! ## The shell follows its transcript -/

section Turns

variable {files : FileView} {interaction : Interaction} {byte : UInt8} {bytes : Bytes}
  {input : Source}

theorem turn_of_end (read : interaction.streams.input.readLine = (.ok [], input)) :
    turn files interaction =
      .stop (.code interaction.status) { interaction.streams with input := input } := by
  rw [turn, read]

theorem turn_of_notText (read : interaction.streams.input.readLine = (.ok (byte :: bytes), input))
    (broken : Utf8.decode? (byte :: bytes) = none) :
    turn files interaction =
      .stop (.failure (unreadable notText)) { interaction.streams with input := input } := by
  rw [turn, read]
  dsimp only
  rw [broken]

theorem turn_of_notEditable {typed : Text}
    (read : interaction.streams.input.readLine = (.ok (byte :: bytes), input))
    (decoded : Utf8.decode? (byte :: bytes) = some typed) (stuck : edited? typed = none) :
    turn files interaction = .stop .breakdown { interaction.streams with input := input } := by
  rw [turn, read]
  dsimp only
  rw [decoded]
  dsimp only
  rw [stuck]

theorem turn_of_line {typed line : Text}
    (read : interaction.streams.input.readLine = (.ok (byte :: bytes), input))
    (decoded : Utf8.decode? (byte :: bytes) = some typed) (meant : edited? typed = some line) :
    turn files interaction =
      let round := interaction.session.execute files line
        { interaction.streams with input := input }
      match round.result with
      | .ok (.next status) => .go ⟨round.session, status, round.streams⟩
      | .ok (.exit code) => .stop (.code code) round.streams
      | .error error => .stop (.failure error) round.streams := by
  rw [turn, read]
  dsimp only
  rw [decoded]
  dsimp only
  rewrite [meant]
  rfl

end Turns

section Lines

variable (files : FileView) (session : Session) (before : Int) {pending rest : Bytes}
  {byte : UInt8} {bytes : Bytes} {typed line : Text}
  (read : (Source.mk pending none).readLine = (.ok (byte :: bytes), ⟨rest, none⟩))
  (decoded : Utf8.decode? (byte :: bytes) = some typed) (meant : edited? typed = some line)
  {output error : Sink} (outputs : output.Unfailing) (errors : error.Unfailing)

include read decoded meant errors

/-- A line that asks for the end is the last one. -/
theorem turn_of_asksForEnd {code : Int} (bearing : Bearing.of line = .asksForEnd code) :
    turn files ⟨session, before, ⟨⟨pending, none⟩, output, error⟩⟩ =
      .stop (.code code) ⟨⟨rest, none⟩, output, error⟩ := by
  rcases Bearing.words_of_asksForEnd bearing with ⟨arguments, words, same⟩
  have executed : session.execute files line ⟨⟨rest, none⟩, output, error⟩ = _ :=
    session.execute_exit files words errors.flushes
  refine (turn_of_line read decoded meant).trans ?_
  dsimp only
  rw [executed, same]

include outputs

/-- After a line that copies the input there is nothing left to read. -/
theorem run_of_copiesRest (bearing : Bearing.of line = .copiesRest) :
    run files ⟨session, before, ⟨⟨pending, none⟩, output, error⟩⟩ =
      (Transcript.after ⟨[], .inputCopied, []⟩
        (session.execute files line { input := { pending := rest } })).following
          before output error := by
  have copy := Bearing.words_of_copiesRest bearing
  have executed : session.execute files line ⟨⟨rest, none⟩, output, error⟩ = _ :=
    execute_copy copy rest outputs errors
  have went : turn files ⟨session, before, ⟨⟨pending, none⟩, output, error⟩⟩ =
      .go ⟨{ session with scope := session.scope.setStatus 0 }, 0,
        ⟨{}, output.holding rest, error⟩⟩ := by
    refine (turn_of_line read decoded meant).trans ?_
    dsimp only
    rw [executed]
  have copied : session.execute files line ⟨⟨rest, none⟩, {}, {}⟩ = _ :=
    execute_copy copy rest ⟨rfl, rfl⟩ ⟨rfl, rfl⟩
  rw [run_of_go went, run_of_stop (turn_of_end rfl),
    Transcript.following_after (congrArg Round.result copied),
    Transcript.following_of_no_rounds rfl, copied]
  exact congrArg (fun errors => (Ending.code 0, (⟨{}, output.holding rest, errors⟩ : Streams)))
    error.holding_nil.symm

/-- Any other line goes on with the rest of the input. -/
theorem turn_of_leavesRest (bearing : Bearing.of line = .leavesRest) :
    let round := session.execute files line { input := { pending := rest } }
    exists status, round.result = .ok (.next status) ∧
      turn files ⟨session, before, ⟨⟨pending, none⟩, output, error⟩⟩ =
        .go ⟨round.session, status, ⟨⟨rest, none⟩,
          output.holding round.streams.output.stored,
          error.holding round.streams.error.stored⟩⟩ := by
  intro round
  have left := exists_leavesStatus session files (congrArg Bearing.goesOn bearing) ⟨rest, none⟩
  rcases left with ⟨status, next, -⟩
  have executed : session.execute files line ⟨⟨rest, none⟩, output, error⟩ = _ :=
    execute_holding (Bearing.words_of_leavesRest bearing) ⟨rest, none⟩ outputs errors
  refine ⟨status, next, (turn_of_line read decoded meant).trans ?_⟩
  dsimp only
  rw [executed]
  dsimp only
  rw [next]

end Lines

/-- The shell follows the transcript of its lines, on sinks that hold something already and
after a line with some status. -/
theorem run_eq_following (files : FileView) (session : Session) (status : Int)
    {lines : List Bytes} {pending : Bytes} (cut : Source.lines pending = lines)
    {output error : Sink} (outputs : output.Unfailing) (errors : error.Unfailing) :
    run files ⟨session, status, ⟨⟨pending, none⟩, output, error⟩⟩ =
      (transcript files edited? session lines).following status output error := by
  -- Each line hands its session, its status and the fuller sinks on to the lines after it.
  induction lines generalizing session status pending output error with
  | nil =>
      have empty : pending = [] := by
        rw [← Source.flatten_lines pending, cut]
        rfl
      subst empty
      rw [run_of_stop (turn_of_end rfl), Transcript.following_of_no_rounds rfl]
      rfl
  | cons bytes later ih =>
      rcases Source.splitLine_of_lines_eq_cons cut with ⟨split, cutLater⟩
      have read : (Source.mk pending none).readLine = (.ok bytes, ⟨later.flatten, none⟩) := by
        rw [Source.readLine, split]
      have nonempty : bytes ≠ [] := by
        apply Source.ne_nil_of_mem_lines
        rw [cut]
        exact List.mem_cons_self
      rcases List.exists_cons_of_ne_nil nonempty with ⟨byte, front, same⟩
      subst same
      rw [transcript]
      cases decoded : Utf8.decode? (byte :: front) with
      | none =>
          rw [run_of_stop (turn_of_notText read decoded), Transcript.following_of_no_rounds rfl]
          rfl
      | some typed =>
          dsimp only
          cases meant : edited? typed with
          | none =>
              rw [run_of_stop (turn_of_notEditable read decoded meant),
                Transcript.following_of_no_rounds rfl]
              rfl
          | some line =>
              dsimp only
              cases bearing : Bearing.of line with
              | asksForEnd code =>
                  rw [run_of_stop (turn_of_asksForEnd files session status read decoded meant
                    errors bearing), Transcript.following_of_no_rounds rfl]
                  rfl
              | copiesRest =>
                  exact run_of_copiesRest files session status read decoded meant outputs errors
                    bearing
              | leavesRest =>
                  have turned := turn_of_leavesRest files session status read decoded meant
                    outputs errors bearing
                  rcases turned with ⟨next, result, went⟩
                  rw [run_of_go went, ih _ next cutLater (outputs.holding _) (errors.holding _)]
                  exact (Transcript.following_after result status output error).symm

/-! ## The status of the last line -/

theorem exists_leavesStatus_of_mem_rounds {files : FileView} {meaning : Text -> Option Text}
    {session : Session} {lines : List Bytes} {round : Round}
    (member : round ∈ (transcript files meaning session lines).rounds) :
    exists status, LeavesStatus round status := by
  induction lines generalizing session with
  | nil => cases member
  | cons bytes later ih =>
      rw [transcript] at member
      split at member
      · cases member
      · split at member
        · cases member
        · next line meant =>
            dsimp only at member
            cases bearing : Bearing.of line with
            | asksForEnd code =>
                rw [bearing] at member
                cases member
            | copiesRest =>
                rw [bearing] at member
                rw [List.mem_singleton.mp member]
                exact exists_leavesStatus session files (congrArg Bearing.goesOn bearing) _
            | leavesRest =>
                rw [bearing] at member
                rcases List.mem_cons.mp member with same | others
                · rw [same]
                  exact exists_leavesStatus session files (congrArg Bearing.goesOn bearing) _
                · exact ih others

/-- The status of a transcript is that of its last line. -/
theorem leavesStatus_of_getLast? {files : FileView} {meaning : Text -> Option Text}
    {session : Session} {lines : List Bytes} {last : Round}
    (ends : (transcript files meaning session lines).rounds.getLast? = some last) :
    LeavesStatus last (transcript files meaning session lines).status := by
  rcases List.getLast?_eq_some_iff.mp ends with ⟨front, same⟩
  have member := List.mem_of_getLast? ends
  rcases exists_leavesStatus_of_mem_rounds member with ⟨status, next, recorded⟩
  have known : (transcript files meaning session lines).status = status := by
    rw [Transcript.status, Transcript.statusAfter, same, lastStatus?_concat, Round.status?, next]
    rfl
  rw [known]
  exact ⟨next, recorded⟩

/-- What the shell does with its input, on sinks that hold nothing and never fail.  It ends
as the transcript of its lines does, with the same streams.  The status of the transcript is
that of the last line, which is also in the variables, and zero if there has been no line.
Lines share nothing but the session, except for the line that copies the input: it writes all
that is left and leaves nothing.  The text of a line is carried out as it was typed, without
its end and without blanks around it, unless there is a backspace in it. -/
theorem run_follows_transcript (files : FileView) (session : Session) (input : Bytes) :
    let told := transcript files edited? session (Source.lines input)
    run files ⟨session, 0, { input := { pending := input } }⟩ = (told.ending, told.streams) ∧
    (forall last, told.rounds.getLast? = some last ->
      last.result = .ok (.next told.status) ∧
        last.session.scope.get? "?".toList = some (Decimal.ofInt told.status)) ∧
    (told.rounds = [] -> told.status = 0) ∧
    (forall (session : Session) line streams, Words.split line ≠ some ["cat".toList] ->
      (session.execute files line streams).streams.input = streams.input) ∧
    (forall (session : Session) line rest, Words.split line = some ["cat".toList] ->
      session.execute files line { input := { pending := rest } } =
        ⟨.ok (.next 0), { session with scope := session.scope.setStatus 0 },
          { output := { stored := rest } }⟩) ∧
    forall typed, Grapheme.backspace ∉ withoutEnd typed ->
      edited? typed = some (Blank.trim (withoutEnd typed)) := by
  intro told
  refine ⟨?_, ?_, ?_, ?_, ?_, ?_⟩
  · exact run_eq_following files session 0 rfl ⟨rfl, rfl⟩ ⟨rfl, rfl⟩
  · intro last ends
    exact leavesStatus_of_getLast? ends
  · intro none
    rw [Transcript.status, Transcript.statusAfter, none]
    rfl
  · intro session line streams notCopy
    exact input_execute notCopy streams
  · intro session line rest copy
    exact execute_copy copy rest ⟨rfl, rfl⟩ ⟨rfl, rfl⟩
  · intro typed absent
    rw [edited?, Grapheme.applyBackspaces?_of_not_mem absent]
    rfl

/-- The text of a line with a backspace is not carried out as it was typed: the character
before the backspace is gone. -/
theorem run_of_line_with_backspace :
    let files : FileView := .ofRecords []
    let session := Session.start .replaceFinal []
    let input := Utf8.encode "echo ab\x08c\n".toList
    let told := transcript files (fun typed => some (Blank.trim (withoutEnd typed))) session
      (Source.lines input)
    run files ⟨session, 0, { input := { pending := input } }⟩ ≠ (told.ending, told.streams) := by
  intro files session input told same
  have one : Source.lines input = [input] := by decide
  have decoded : Utf8.decode? input = some "echo ab\x08c\n".toList := Utf8.decode?_encode _
  have edit : edited? "echo ab\x08c\n".toList = some "echo ac".toList := by decide
  have followed : run files ⟨session, 0, { input := { pending := input } }⟩ = _ :=
    run_eq_following files session 0 one ⟨rfl, rfl⟩ ⟨rfl, rfl⟩
  have meant : (transcript files edited? session [input]).output = Utf8.encode "ac\n".toList := by
    rw [transcript, decoded]
    dsimp only
    rw [edit]
    decide
  have typed : told.output = Utf8.encode "ab\x08c\n".toList := by
    dsimp only [told]
    rw [one, transcript, decoded]
    decide
  have outputs : (transcript files edited? session [input]).output = told.output :=
    congrArg (fun ended => ended.2.output.stored) (followed.symm.trans same)
  rw [meant, typed] at outputs
  exact absurd outputs (by decide)

end Interaction
end MiniShell
