import MiniShell.Proofs.Rendering
import MiniShell.Proofs.Transcript

namespace MiniShell

/-!
# Lines without words

A line without words, be it empty, blank or a comment, runs no command.  It writes
nothing and reads nothing, but it counts as a line that has succeeded: afterwards the
variables say zero, whatever the status of the last command was.

No command looks at that variable.  Lines without words can therefore be put between
the lines of an input without changing what these write.  What they do change is the
end of the shell, and only if such a line is the last one that the shell carries out.
-/

/-! ## What commands see of the variables -/

namespace Builtin

variable {rule : PathRule} {files : FileView} {scope other : Variables}

theorem run_eq_of_directory (same : scope.directory = other.directory) {command : Command}
    (member : command ∈ (registry rule files).commands) (arguments : List Text) :
    command.run arguments scope = command.run arguments other := by
  simp only [registry, List.mem_cons, List.not_mem_nil, or_false] at member
  rcases member with called | called | called | called | called
  · subst called
    simp only [Concatenation.command, Concatenation.concatenate, same]
  · subst called
    rfl
  · subst called
    simp only [pwd, same]
  · subst called
    rfl
  · subst called
    rfl

/-- All that a line sees of the variables is the tracked directory. -/
theorem handle_eq_of_directory (same : scope.directory = other.directory) (line : Text) :
    (registry rule files).handle line scope = (registry rule files).handle line other := by
  apply Registry.handle_congr
  · intro name arguments _
    rfl
  · intro name arguments _
    rw [Registry.run?, Registry.run?]
    apply Option.map_congr
    intro command found
    exact run_eq_of_directory same (Registry.mem_of_find? found).1 arguments

end Builtin

namespace Session

open StreamM

variable {session other : Session} {files : FileView} {line : Text}

theorem attempt_eq_of_setting (same : session.setting = other.setting) :
    session.attempt files line = other.attempt files line := by
  have sameRule : session.rule = other.rule := congrArg Prod.fst same
  have sameDirectory : session.scope.directory = other.scope.directory := congrArg Prod.snd same
  rw [attempt, attempt, registry, registry, sameRule,
    Builtin.handle_eq_of_directory sameDirectory]

/-- Sessions with the same setting do the same to the sinks, whatever there is to read, unless the
line copies the input. -/
theorem onSinks_execute_of_setting (same : session.setting = other.setting)
    (notCopy : Words.split line ≠ some [Concatenation.name]) (input further : Source)
    (output error : Sink) :
    (session.execute files line ⟨input, output, error⟩).onSinks =
      (other.execute files line ⟨further, output, error⟩).onSinks := by
  have planned : Planned ((other.registry files).handle line other.scope) _ :=
    Builtin.planned_handle line notCopy
  rcases planned with ⟨plan, performed, -⟩
  have handled : forall input,
      seen ((other.registry files).handle line other.scope ⟨input, output, error⟩) =
        plan.onSinks output error := by
    intro input
    rw [performed, Plan.seen_perform]
  rw [onSinks_execute, onSinks_execute, attempt_eq_of_setting same, seen_attempt (handled input),
    seen_attempt (handled further)]

/-- A line without words only says that it has succeeded. -/
theorem execute_idle (words : Words.split line = some []) {streams : Streams}
    (flushes : streams.error.flushFails = false) :
    session.execute files line streams =
      ⟨.ok (.next 0), { session with scope := session.scope.setStatus 0 }, streams⟩ := by
  have handled : (session.registry files).handle line session.scope streams =
      .ok (.next 0) streams := by
    rw [Registry.handle, words]
    rfl
  have flushed : flushError streams = .ok () streams := flush_eq .error flushes
  rw [execute, attempt_of_ok handled, bind_of_ok flushed]
  rfl

end Session

/-! ## Lines between lines -/

namespace Interaction

open Session StreamM

/-- The line that the editor makes of some bytes.  Bytes that are no text are told from a text
that cannot be edited. -/
def meant? (bytes : Bytes) : Option (Option Text) :=
  (Utf8.decode? bytes).map edited?

/-- The words of the line, if it has come to be one and all its quotes are closed. -/
def words? (bytes : Bytes) : Option (List Text) :=
  (meant? bytes).join.bind Words.split

def isIdle (bytes : Bytes) : Bool :=
  words? bytes == some []

theorem exists_meant_of_words? {bytes : Bytes} {words : List Text}
    (known : words? bytes = some words) :
    exists line, meant? bytes = some (some line) ∧ Words.split line = some words := by
  rcases Option.bind_eq_some_iff.mp known with ⟨line, meant, split⟩
  exact ⟨line, Option.join_eq_some_iff.mp meant, split⟩

/-- The words of a line that is well-formed text. -/
theorem words?_encode {typed line : Text} (edit : edited? typed = some line) :
    words? (Utf8.encode typed) = Words.split line := by
  rw [words?, meant?, Utf8.decode?_encode, Option.map_some, edit]
  rfl

/-- The second lines are the first with lines without words between them, anywhere but after a
line that copies the input, behind which there are no lines.  Otherwise a line has to mean the
same, so that a last line may get the newline that it lacks. -/
inductive Padded : List Bytes -> List Bytes -> Prop where
  | nil : Padded [] []
  | idle {lines padded : List Bytes} {bytes : Bytes} (idle : isIdle bytes = true)
      (rest : Padded lines padded) : Padded lines (bytes :: padded)
  | line {lines padded : List Bytes} {bytes other : Bytes} (same : meant? bytes = meant? other)
      (notCopy : words? bytes ≠ some ["cat".toList]) (rest : Padded lines padded) :
      Padded (bytes :: lines) (other :: padded)
  | copy {lines : List Bytes} {bytes : Bytes} (copies : words? bytes = some ["cat".toList]) :
      Padded (bytes :: lines) (bytes :: lines)

theorem Padded.refl (lines : List Bytes) : Padded lines lines := by
  induction lines with
  | nil => exact .nil
  | cons bytes lines ih =>
      by_cases copies : words? bytes = some ["cat".toList]
      · exact .copy copies
      · exact .line rfl copies ih

/-- Lines without words can be put behind lines of which none copies the input. -/
theorem Padded.insert {front inserted : List Bytes}
    (noCopy : forall bytes, bytes ∈ front -> words? bytes ≠ some ["cat".toList])
    (idle : forall bytes, bytes ∈ inserted -> isIdle bytes = true) (back : List Bytes) :
    Padded (front ++ back) (front ++ (inserted ++ back)) := by
  induction front with
  | nil =>
      induction inserted with
      | nil => exact .refl back
      | cons bytes inserted ih =>
          apply Padded.idle (idle bytes List.mem_cons_self)
          exact ih fun other member => idle other (List.mem_cons_of_mem bytes member)
  | cons bytes front ih =>
      apply Padded.line rfl (noCopy bytes List.mem_cons_self)
      exact ih fun other member => noCopy other (List.mem_cons_of_mem bytes member)

theorem Padded.eq_nil {lines : List Bytes} (padded : Padded lines []) : lines = [] := by
  cases padded
  rfl

section Contributions

variable {files : FileView} {session : Session} {bytes : Bytes} {later : List Bytes} {line : Text}

theorem transcript_of_notText (broken : meant? bytes = none) :
    transcript files edited? session (bytes :: later) = ⟨[], .notText, later.flatten⟩ := by
  rw [transcript, Option.map_eq_none_iff.mp broken]

theorem transcript_of_notEditable (stuck : meant? bytes = some none) :
    transcript files edited? session (bytes :: later) = ⟨[], .notEditable, later.flatten⟩ := by
  rcases Option.map_eq_some_iff.mp stuck with ⟨typed, decoded, edit⟩
  rw [transcript, decoded]
  dsimp only
  rw [edit]

theorem transcript_of_asksForEnd (meant : meant? bytes = some (some line)) {code : Int}
    (bearing : Bearing.of line = .asksForEnd code) :
    transcript files edited? session (bytes :: later) =
      ⟨[], .requested code, later.flatten⟩ := by
  rcases Option.map_eq_some_iff.mp meant with ⟨typed, decoded, edit⟩
  rw [transcript, decoded]
  dsimp only
  rw [edit]
  dsimp only
  rw [bearing]

theorem transcript_of_copiesRest (meant : meant? bytes = some (some line))
    (bearing : Bearing.of line = .copiesRest) :
    transcript files edited? session (bytes :: later) =
      Transcript.after ⟨[], .inputCopied, []⟩
        (session.execute files line { input := { pending := later.flatten } }) := by
  rcases Option.map_eq_some_iff.mp meant with ⟨typed, decoded, edit⟩
  rw [transcript, decoded]
  dsimp only
  rw [edit]
  dsimp only
  rw [bearing]

theorem transcript_of_leavesRest (meant : meant? bytes = some (some line))
    (bearing : Bearing.of line = .leavesRest) :
    transcript files edited? session (bytes :: later) =
      let round := session.execute files line { input := { pending := later.flatten } }
      (transcript files edited? round.session later).after round := by
  rcases Option.map_eq_some_iff.mp meant with ⟨typed, decoded, edit⟩
  rw [transcript, decoded]
  dsimp only
  rw [edit]
  dsimp only
  rw [bearing]

end Contributions

theorem transcript_idle (files : FileView) (session : Session) {bytes : Bytes}
    (idle : isIdle bytes = true) (later : List Bytes) :
    let resumed := { session with scope := session.scope.setStatus 0 }
    transcript files edited? session (bytes :: later) =
      (transcript files edited? resumed later).after
        ⟨.ok (.next 0), resumed, { input := { pending := later.flatten } }⟩ := by
  intro resumed
  rcases exists_meant_of_words? (beq_iff_eq.mp idle) with ⟨line, meant, words⟩
  have bearing : Bearing.of line = .leavesRest := by
    rw [Bearing.of, words]
  have executed : session.execute files line { input := { pending := later.flatten } } = _ :=
    execute_idle words rfl
  rw [transcript_of_leavesRest meant bearing, executed]

/-! ## Two transcripts -/

/-- The status behind the lines: the one that the line before them had, or zero if the last of
them has no words, or this status. -/
def statusBehind (lines : List Bytes) (before status : Int) : Int :=
  match lines.getLast? with
  | none => before
  | some bytes => if isIdle bytes = true then 0 else status

theorem statusBehind_cons (bytes : Bytes) (lines : List Bytes) (before status : Int) :
    statusBehind (bytes :: lines) before status =
      statusBehind lines (if isIdle bytes = true then 0 else status) status := by
  rw [statusBehind, statusBehind, List.getLast?_cons]
  cases lines.getLast? <;> rfl

/-- One transcript tells the same as the other, except for the status at the end of the input. -/
structure TellsSame (told more : Transcript) (padded : List Bytes) : Prop where
  output : more.output = told.output
  error : more.error = told.error
  stop : more.stop = told.stop
  status : told.stop = .inputEnded -> forall before further,
    more.statusAfter further = statusBehind padded further (told.statusAfter before)

theorem Transcript.output_after (told : Transcript) (round : Round) :
    (told.after round).output = round.streams.output.stored ++ told.output := by
  rw [output, after, List.flatMap_cons, output]

theorem Transcript.error_after (told : Transcript) (round : Round) :
    (told.after round).error = round.streams.error.stored ++ told.error := by
  rw [error, after, List.flatMap_cons, error]

namespace TellsSame

variable {told more : Transcript} {padded : List Bytes} {bytes : Bytes} {round further : Round}

theorem of_no_rounds {stop : Stop} (notEnded : stop ≠ .inputEnded) (left others : Bytes) :
    TellsSame ⟨[], stop, left⟩ ⟨[], stop, others⟩ padded := by
  constructor
  · rfl
  · rfl
  · rfl
  · intro ended
    exact absurd ended notEnded

/-- A line without words that comes before the others. -/
theorem after_idle (tells : TellsSame told more padded) (idle : isIdle bytes = true)
    (next : further.result = .ok (.next 0)) (noOutput : further.streams.output.stored = [])
    (noError : further.streams.error.stored = []) :
    TellsSame told (more.after further) (bytes :: padded) := by
  constructor
  · rw [Transcript.output_after, noOutput, List.nil_append, tells.output]
  · rw [Transcript.error_after, noError, List.nil_append, tells.error]
  · exact tells.stop
  · intro ended before behind
    rw [Transcript.statusAfter_after next, tells.status ended before, statusBehind_cons,
      if_pos idle]

/-- A line that both have, before the others. -/
theorem after_line (tells : TellsSame told more padded) {status : Int}
    (same : further.onSinks = round.onSinks) (next : round.result = .ok (.next status))
    (idle : isIdle bytes = true -> status = 0) (none : padded = [] -> told.rounds = []) :
    TellsSame (told.after round) (more.after further) (bytes :: padded) := by
  have sameOutput : further.streams.output.stored = round.streams.output.stored :=
    congrArg (fun seen => seen.output.stored) same
  have sameError : further.streams.error.stored = round.streams.error.stored :=
    congrArg (fun seen => seen.error.stored) same
  have nextFurther : further.result = .ok (.next status) :=
    (congrArg Seen.result same).trans next
  constructor
  · rw [Transcript.output_after, Transcript.output_after, sameOutput, tells.output]
  · rw [Transcript.error_after, Transcript.error_after, sameError, tells.error]
  · exact tells.stop
  · intro ended before behind
    rw [Transcript.statusAfter_after nextFurther, Transcript.statusAfter_after next,
      tells.status ended status, statusBehind_cons]
    cases padded with
    | cons line padded =>
        rw [statusBehind_cons, statusBehind_cons]
    | nil =>
        have known : told.statusAfter status = status := by
          rw [Transcript.statusAfter, none rfl]
          rfl
        change status = if isIdle bytes = true then 0 else told.statusAfter status
        rw [known]
        split
        · next isIdle => exact idle isIdle
        · rfl

theorem ending_eq (tells : TellsSame told more padded) (none : padded = [] -> told.rounds = []) :
    more.ending =
      if told.stop = .inputEnded ∧ padded.getLast?.any isIdle = true then .code 0
      else told.ending := by
  rw [Transcript.ending, Transcript.ending, Transcript.endingAfter, Transcript.endingAfter,
    tells.stop]
  cases stop : told.stop with
  | inputEnded =>
      rw [tells.status stop 0 0, statusBehind]
      cases last : padded.getLast? with
      | none =>
          have known : told.statusAfter 0 = 0 := by
            rw [Transcript.statusAfter, none (List.getLast?_eq_none_iff.mp last)]
            rfl
          simp [known]
      | some bytes =>
          by_cases idle : isIdle bytes = true
          · simp [idle]
          · simp [idle]
  | _ => simp

end TellsSame

/-- The line that copies the input leaves nothing to compare. -/
theorem tellsSame_of_copy (files : FileView) (session other : Session) {bytes : Bytes}
    (copies : words? bytes = some ["cat".toList]) (lines : List Bytes) :
    TellsSame (transcript files edited? session (bytes :: lines))
      (transcript files edited? other (bytes :: lines)) (bytes :: lines) := by
  rcases exists_meant_of_words? copies with ⟨line, meant, words⟩
  have bearing : Bearing.of line = .copiesRest := by
    rw [Bearing.of, words]
    rfl
  have here : session.execute files line { input := { pending := lines.flatten } } = _ :=
    execute_copy words lines.flatten ⟨rfl, rfl⟩ ⟨rfl, rfl⟩
  have there : other.execute files line { input := { pending := lines.flatten } } = _ :=
    execute_copy words lines.flatten ⟨rfl, rfl⟩ ⟨rfl, rfl⟩
  rw [transcript_of_copiesRest meant bearing, transcript_of_copiesRest meant bearing, here, there]
  constructor
  · rfl
  · rfl
  · rfl
  · intro ended
    cases ended

/-- Sessions with the same setting write the same for lines and for these lines with others
between them that have no words. -/
theorem tellsSame_of_padded (files : FileView) {lines padded : List Bytes}
    (padding : Padded lines padded) {session other : Session}
    (same : session.setting = other.setting) :
    TellsSame (transcript files edited? session lines) (transcript files edited? other padded)
      padded := by
  induction padding generalizing session other with
  | nil =>
      constructor
      · rfl
      · rfl
      · rfl
      · intro _ before further
        rfl
  | @idle lines padded bytes idle rest ih =>
      rw [transcript_idle files other idle padded]
      apply TellsSame.after_idle _ idle rfl rfl rfl
      apply ih
      rw [same]
      exact congrArg (Prod.mk _) (Variables.directory_setStatus _ 0).symm
  | @line lines padded bytes respelled sameLine notCopy rest ih =>
      cases meant : meant? bytes with
      | none =>
          rw [transcript_of_notText meant, transcript_of_notText (sameLine.symm.trans meant)]
          exact .of_no_rounds (by decide) _ _
      | some edit =>
          have meantAgain := sameLine.symm.trans meant
          cases edit with
          | none =>
              rw [transcript_of_notEditable meant, transcript_of_notEditable meantAgain]
              exact .of_no_rounds (by decide) _ _
          | some line =>
              have notCopyLine : Words.split line ≠ some [Concatenation.name] := by
                intro copy
                apply notCopy
                rw [words?, meant]
                exact copy
              cases bearing : Bearing.of line with
              | asksForEnd code =>
                  rw [transcript_of_asksForEnd meant bearing,
                    transcript_of_asksForEnd meantAgain bearing]
                  exact .of_no_rounds (by intro ended; cases ended) _ _
              | copiesRest => exact absurd (Bearing.words_of_copiesRest bearing) notCopyLine
              | leavesRest =>
                  have left := exists_leavesStatus session files
                    (congrArg Bearing.goesOn bearing) ⟨lines.flatten, none⟩
                  rcases left with ⟨status, next, -⟩
                  rw [transcript_of_leavesRest meant bearing,
                    transcript_of_leavesRest meantAgain bearing]
                  refine .after_line (ih ?_) ?_ next ?_ ?_
                  · rw [setting_execute, setting_execute, same]
                  · exact onSinks_execute_of_setting same.symm notCopyLine _ _ _ _
                  · intro idle
                    have words : Words.split line = some [] := by
                      have known : words? respelled = some [] := beq_iff_eq.mp idle
                      rw [words?, meantAgain] at known
                      exact known
                    rw [execute_idle words rfl] at next
                    cases next
                    rfl
                  · intro none
                    rw [none] at rest
                    rw [rest.eq_nil]
                    rfl
  | copy copies => exact tellsSame_of_copy files session other copies _

/-- What a line without words does, and what such lines do between others.  By itself the line
writes nothing and reads nothing, on any streams with an error stream that can be flushed, but
afterwards the variables say that the last status is zero, as if a command had succeeded.  They
say nothing else that is new.  Among the lines of an input, lines without words make no
difference for what is written.  The shell ends as it would have ended without them, unless it
comes to the end of the input and the last line is one without words: then it ends with zero. -/
theorem idle_lines (files : FileView) (session : Session) :
    (forall line streams, Words.split line = some [] -> streams.error.flushFails = false ->
      let round := session.execute files line streams
      round.result = .ok (.next 0) ∧ round.streams = streams ∧
        round.session.scope.get? "?".toList = some "0".toList ∧
        (forall name, name ≠ "?".toList ->
          round.session.scope.get? name = session.scope.get? name)) ∧
    (forall plain padded, Padded (Source.lines plain) (Source.lines padded) ->
      let told := transcript files edited? session (Source.lines plain)
      let short := run files ⟨session, 0, { input := { pending := plain } }⟩
      let long := run files ⟨session, 0, { input := { pending := padded } }⟩
      long.2.output = short.2.output ∧ long.2.error = short.2.error ∧
        long.1 =
          if told.stop = .inputEnded ∧ (Source.lines padded).getLast?.any isIdle = true then .code 0
          else short.1) := by
  constructor
  · intro line streams words flushes round
    have executed : round = _ := execute_idle words flushes
    rw [executed]
    refine ⟨rfl, rfl, Variables.get?_set_self _ _ _, ?_⟩
    intro name other
    exact Variables.get?_set_of_ne _ _ other
  · intro plain padded padding told short long
    have shortRun : short = told.following 0 {} {} :=
      run_eq_following files session 0 rfl ⟨rfl, rfl⟩ ⟨rfl, rfl⟩
    have longRun : long = _ := run_eq_following files session 0 rfl ⟨rfl, rfl⟩ ⟨rfl, rfl⟩
    have tells : TellsSame told _ _ := tellsSame_of_padded files padding rfl
    have noRounds : Source.lines padded = [] -> told.rounds = [] := by
      intro none
      rw [none] at padding
      dsimp only [told]
      rw [padding.eq_nil]
      rfl
    rw [shortRun, longRun]
    refine ⟨?_, ?_, tells.ending_eq noRounds⟩
    · exact congrArg (Sink.holding {}) tells.output
    · exact congrArg (Sink.holding {}) tells.error

/-- An empty line and a comment in front of a command that is not found. -/
theorem idle_lines_in_front :
    let files : FileView := .ofRecords []
    let session := Session.start .append (Utf8.encode "/".toList)
    let plain := Utf8.encode "nosuch\n".toList
    let padded := Utf8.encode "\n # twice\nnosuch\n".toList
    Padded (Source.lines plain) (Source.lines padded) ∧
      (run files ⟨session, 0, { input := { pending := padded } }⟩).1 =
        (run files ⟨session, 0, { input := { pending := plain } }⟩).1 := by
  intro files session plain padded
  have command : words? plain = some ["nosuch".toList] :=
    words?_encode (show edited? _ = some "nosuch".toList by decide)
  have empty : words? (Utf8.encode "\n".toList) = some [] :=
    words?_encode (show edited? _ = some [] by decide)
  have comment : words? (Utf8.encode " # twice\n".toList) = some [] :=
    words?_encode (show edited? _ = some "# twice".toList by decide)
  have plainLines : Source.lines plain = [plain] := by decide
  have paddedLines : Source.lines padded =
      [Utf8.encode "\n".toList, Utf8.encode " # twice\n".toList, plain] := by
    decide
  have padding : Padded (Source.lines plain) (Source.lines padded) := by
    rw [plainLines, paddedLines]
    have idle : forall bytes,
        bytes ∈ [Utf8.encode "\n".toList, Utf8.encode " # twice\n".toList] ->
          isIdle bytes = true :=
      List.forall_mem_cons.mpr
        ⟨beq_iff_eq.mpr empty, List.forall_mem_singleton.mpr (beq_iff_eq.mpr comment)⟩
    exact .insert (List.forall_mem_nil _) idle [plain]
  have known := ((idle_lines files session).2 plain padded padding).2.2
  have lastHasWords : ¬ (Source.lines padded).getLast?.any isIdle = true := by
    rw [paddedLines]
    change ¬ (words? plain == some []) = true
    rw [command]
    decide
  rw [if_neg fun ended => lastHasWords ended.2] at known
  exact ⟨padding, known⟩

/-- The status of a command that was not found is lost behind an empty line: it is no longer in
the variables, and the shell ends as if the command had been carried out. -/
theorem empty_line_hides_failure :
    let files : FileView := .ofRecords []
    let session := Session.start .append (Utf8.encode "/".toList)
    let failed := (session.execute files "nosuch".toList {}).session
    failed.scope.get? "?".toList = some "1".toList ∧
      (failed.execute files [] {}).session.scope.get? "?".toList = some "0".toList ∧
      (run files ⟨session, 0,
        { input := { pending := Utf8.encode "nosuch\n".toList } }⟩).1 = .code 1 ∧
      (run files ⟨session, 0,
        { input := { pending := Utf8.encode "nosuch\n\n".toList } }⟩).1 = .code 0 := by
  intro files session failed
  let plain := Utf8.encode "nosuch\n".toList
  let empty := Utf8.encode "\n".toList
  have meant : meant? plain = some (some "nosuch".toList) := by
    dsimp only [meant?, plain]
    rw [Utf8.decode?_encode]
    decide
  have told : (transcript files edited? session [plain]).ending = .code 1 ∧
      (transcript files edited? session [plain]).stop = .inputEnded := by
    rw [transcript_of_leavesRest meant rfl]
    decide
  have idle : words? empty = some [] := words?_encode (show edited? _ = some [] by decide)
  have noCopy : words? plain ≠ some ["cat".toList] := by
    rw [words?, meant]
    decide
  have padding : Padded [plain] [plain, empty] :=
    .insert (List.forall_mem_singleton.mpr noCopy)
      (List.forall_mem_singleton.mpr (beq_iff_eq.mpr idle)) []
  have tells : TellsSame _ (transcript files edited? session [plain, empty]) _ :=
    tellsSame_of_padded files padding rfl
  have ended := tells.ending_eq fun none => by cases none
  rw [if_pos ⟨told.2, beq_iff_eq.mpr idle⟩] at ended
  refine ⟨by decide, by decide, ?_, ?_⟩
  · have one : Source.lines plain = [plain] := by decide
    rw [run_eq_following files session 0 one ⟨rfl, rfl⟩ ⟨rfl, rfl⟩]
    exact told.1
  · have two : Source.lines (Utf8.encode "nosuch\n\n".toList) = [plain, empty] := by decide
    rw [run_eq_following files session 0 two ⟨rfl, rfl⟩ ⟨rfl, rfl⟩]
    exact ended

end Interaction
end MiniShell
