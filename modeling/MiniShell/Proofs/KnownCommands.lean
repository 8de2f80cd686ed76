import MiniShell.Proofs.ErrorStream
import MiniShell.Proofs.Registration
import MiniShell.Proofs.SessionVariables

namespace MiniShell

/-!
# What a command is

Three parts of the shell say whether a word is a command: carrying out a line with this word
alone, the command `type`, and completion.  They look in different places, in the
registry of the session, in the list of all commands of the shell, and in a list of
names that was taken from the registry.  It is shown that they agree about every word.

A line is known by what it leaves on the error stream.  That a command is unknown
must therefore not be said by a command either.  A command without arguments that is no
line of usage can only speak of the faults of its streams, and no command has a
name that begins like the report of a fault.
-/

open StreamM

/-! ## Carrying out a word alone -/

namespace Plan

/-- All that can be said on the error stream is that a stream has failed. -/
structure OnlyFaults (plan : Plan) : Prop where
  diagnostics : plan.diagnostics = []
  faults : forall error, plan.ending = .error error -> exists fault, error = .io fault

theorem OnlyFaults.said {plan : Plan} (onlyFaults : plan.OnlyFaults) (output : Sink) :
    Session.said plan output = [] ∨
      exists fault, Session.said plan output = Session.shown (.error (.io fault)) := by
  rw [Session.said, written, reached, onlyFaults.diagnostics]
  cases output.send plan.output plan.flushes with
  | error fault => exact .inr ⟨fault, rfl⟩
  | ok value =>
      cases ended : plan.ending with
      | ok flow => exact .inl rfl
      | error error =>
          rcases onlyFaults.faults error ended with ⟨fault, rfl⟩
          exact .inr ⟨fault, rfl⟩

theorem onlyFaults_print (output : Bytes) (flushes : Bool) :
    (print output [] flushes).OnlyFaults :=
  ⟨rfl, fun _ ended => by cases ended⟩

theorem onlyFaults_exit (code : Int) : (exit code).OnlyFaults :=
  ⟨rfl, fun _ ended => by cases ended⟩

theorem onlyFaults_copyPlan (input : Source) : (Concatenation.copyPlan input).OnlyFaults := by
  rw [Concatenation.copyPlan]
  cases input.fault with
  | none => exact onlyFaults_print _ _
  | some fault =>
      refine ⟨rfl, ?_⟩
      intro error ended
      exact ⟨fault, (Except.error.inj ended).symm⟩

end Plan

namespace Builtin

/-- What is said of a word that is no command. -/
def denial (word : Text) : Text :=
  word ++ ": command not found\n".toList

theorem shown_commandNotFound (word : Text) :
    Session.shown (.error (.commandNotFound (word ++ ": command not found".toList))) =
      Utf8.encode (denial word) :=
  congrArg Utf8.encode (List.append_assoc _ _ _)

/-- The list of all commands has the names that a look-up finds, over any files. -/
theorem mem_names_iff_contains (rule : PathRule) (files : FileView) (name : Text) :
    name ∈ names ↔ (registry rule files).contains name = true := by
  rw [← names_registry rule files]
  exact Registry.mem_names_iff

/-- What `type` says of a word is what a look-up of the word says. -/
theorem run_type (rule : PathRule) (files : FileView) (word : Text) (more : List Text)
    (scope : Variables) :
    type.run (word :: more) scope =
      if (registry rule files).contains word = true then
        writeOutput (Utf8.encode (word ++ " is a shell builtin\n".toList)) >>= fun _ => pure 0
      else
        writeError (Utf8.encode (word ++ ": not found\n".toList)) >>= fun _ => pure 1 := by
  simp only [type, List.contains_iff_mem, mem_names_iff_contains rule files]

/-- A fault is not reported in words that deny a command of the shell. -/
theorem shown_io_ne_denial {name : Text} (known : name ∈ names) (fault : Fault) :
    Session.shown (.error (.io fault)) ≠ Utf8.encode (denial name) := by
  intro same
  have texts := congrArg List.head? (Utf8.encode_inj.mp same)
  have begins : forall name, name ∈ names -> (denial name).head? ≠ some 'I' := by decide
  exact begins name known texts.symm

theorem handle_eq_proceed (command : Command) {rule : PathRule} {files : FileView} {line : Text}
    {arguments : List Text} (words : Words.split line = some (command.name :: arguments))
    (found : (registry rule files).find? command.name = some command)
    (stays : command.exitCode? arguments = none) (scope : Variables) :
    (registry rule files).handle line scope = proceed (command.run arguments scope) := by
  simp only [Registry.handle, words, Registry.exitCode?, Registry.run?, found, Option.bind_some,
    stays, Option.map_some]
  rfl

theorem run_pwd {scope : Variables} {marker : Text} (tracked : scope.directory = .ok marker)
    (arguments : List Text) :
    pwd.run arguments scope =
      writeOutput (Utf8.encode (printedDirectory marker ++ ['\n'])) >>= fun _ => pure 0 := by
  simp only [pwd, tracked]
  rfl

end Builtin

namespace Session

variable {session : Session} {files : FileView} {line marker : Text}

theorem follows_of_performs {plan : Plan} {input : Source}
    (performs : (session.registry files).handle line session.scope = plan.perform) :
    session.Follows files line input plan := by
  intro output error
  rw [performs, Plan.seen_perform]

/-- Where nothing is printed, the diagnostics are said on any output. -/
theorem said_diagnostics (diagnostics : Bytes) (output : Sink) :
    said (.print [] diagnostics false) output = diagnostics := by
  simp only [said, Plan.written, Plan.reached, Plan.output, Plan.flushes, Sink.send_nil]
  exact List.append_nil _

/-- A command that is called without arguments only speaks of faults, or of its usage. -/
theorem exists_follows_alone {name : Text} (words : Words.split line = some [name])
    (known : name ∈ Builtin.names) (tracked : session.scope.directory = .ok marker)
    (files : FileView) (input : Source) :
    exists plan, session.Follows files line input plan ∧
      (plan.OnlyFaults ∨ name = "type".toList ∧
        plan = .print [] (Utf8.encode "type: usage: type name\n".toList) false) := by
  simp only [Builtin.names, List.mem_cons, List.not_mem_nil, or_false] at known
  rcases known with rfl | rfl | rfl | rfl | rfl
  · refine ⟨Concatenation.copyPlan input, ?_, .inl (Plan.onlyFaults_copyPlan input)⟩
    intro output error
    rw [registry, Builtin.handle_copy words, Concatenation.seen_copyInput, Plan.seen_perform]
  · have prints : (session.registry files).handle line session.scope =
        (Plan.print (Utf8.encode ['\n']) [] false).perform :=
      (Builtin.handle_eq_proceed Builtin.echo words rfl rfl _).trans (proceed_writeOutput _)
    exact ⟨_, follows_of_performs prints, .inl (Plan.onlyFaults_print _ _)⟩
  · have prints : (session.registry files).handle line session.scope =
        (Plan.print (Utf8.encode (Builtin.printedDirectory marker ++ ['\n'])) [] false).perform := by
      rw [← proceed_writeOutput, ← Builtin.run_pwd tracked []]
      exact Builtin.handle_eq_proceed Builtin.pwd words rfl rfl _
    exact ⟨_, follows_of_performs prints, .inl (Plan.onlyFaults_print _ _)⟩
  · have complains : (session.registry files).handle line session.scope =
        (Plan.print [] (Utf8.encode "type: usage: type name\n".toList) false).perform :=
      (Builtin.handle_eq_proceed Builtin.type words rfl rfl _).trans
        (proceed_writeError (Utf8.encode_ne_nil (by decide)))
    exact ⟨_, follows_of_performs complains, .inr ⟨rfl, rfl⟩⟩
  · have exits : (session.registry files).handle line session.scope =
        (Plan.exit (Builtin.requestedCode [])).perform :=
      (Builtin.handle_exit words).trans (Plan.silent_exit _).perform_eq.symm
    exact ⟨_, follows_of_performs exits, .inl (Plan.onlyFaults_exit _)⟩

/-- A command is never denied, whatever becomes of its output. -/
theorem error_ne_denial {name : Text} (words : Words.split line = some [name])
    (known : name ∈ Builtin.names) (tracked : session.scope.directory = .ok marker)
    (files : FileView) (input : Source) (output : Sink) (said : Bytes) :
    (session.execute files line ⟨input, output, { stored := said }⟩).streams.error.stored ≠
      said ++ Utf8.encode (Builtin.denial name) := by
  rcases exists_follows_alone words known tracked files input with ⟨plan, follows, speaks⟩
  have unfailing := Sink.unfailing_of_stored said
  have leaves := congrArg (fun seen => seen.error.stored)
    (follows.onSinks_unfailing output unfailing)
  intro denied
  have same : Session.said plan output = Utf8.encode (Builtin.denial name) :=
    List.append_cancel_left (leaves.symm.trans denied)
  rcases speaks with onlyFaults | ⟨rfl, rfl⟩
  · rcases onlyFaults.said output with nothing | ⟨fault, fails⟩
    · have speaks : Builtin.denial name ≠ [] :=
        List.append_ne_nil_of_right_ne_nil _ (by decide)
      exact Utf8.encode_ne_nil speaks (same.symm.trans nothing)
    · exact Builtin.shown_io_ne_denial known fault (fails.symm.trans same)
  · rw [said_diagnostics, Utf8.encode_inj] at same
    have differ : "type: usage: type name\n".toList ≠ Builtin.denial "type".toList := by decide
    exact differ same

/-- A word that is no command is denied, and nothing is printed. -/
theorem onSinks_of_not_mem (session : Session) {word : Text} {arguments : List Text}
    (words : Words.split line = some (word :: arguments)) (unknown : word ∉ Builtin.names)
    (files : FileView) (input : Source) (output : Sink) {error : Sink}
    (unfailing : error.Unfailing) :
    (session.execute files line ⟨input, output, error⟩).onSinks =
      ⟨.ok (.next 1), output, error.holding (Utf8.encode (Builtin.denial word))⟩ := by
  have absent : (session.registry files).contains word = false := by
    apply Bool.eq_false_iff.mpr
    exact mt (Builtin.mem_names_iff_contains session.rule files word).mpr unknown
  have ends := session.onSinks_execute_unfailing files line input output unfailing
  rw [Registry.handle_of_not_contains words absent] at ends
  rw [← Builtin.shown_commandNotFound]
  exact ends

/-- A word alone is denied exactly if it is no command. -/
theorem error_eq_denial_iff {word : Text} (words : Words.split line = some [word])
    (tracked : session.scope.directory = .ok marker) (files : FileView) (input : Source)
    (output : Sink) (said : Bytes) :
    (session.execute files line ⟨input, output, { stored := said }⟩).streams.error.stored =
        said ++ Utf8.encode (Builtin.denial word) ↔
      word ∉ Builtin.names := by
  constructor
  · intro denied known
    exact error_ne_denial words known tracked files input output said denied
  · intro unknown
    have unfailing := Sink.unfailing_of_stored said
    have denied := session.onSinks_of_not_mem words unknown files input output unfailing
    exact congrArg (fun seen => seen.error.stored) denied

/-! ## Asking what a word is -/

/-- After the round the shell goes on with this status, and these bytes are in the sinks. -/
structure Round.Ends (round : Round) (status : Int) (output error : Bytes) : Prop where
  result : round.result = .ok (.next status)
  output : round.streams.output.stored = output
  error : round.streams.error.stored = error

/-- What is answered when one asks for a word. -/
def typePlan (word : Text) : Plan :=
  if word ∈ Builtin.names then
    .print (Utf8.encode (word ++ " is a shell builtin\n".toList)) [] false
  else .print [] (Utf8.encode (word ++ ": not found\n".toList)) false

theorem follows_typePlan (session : Session) {word : Text} {more : List Text}
    (words : Words.split line = some ("type".toList :: word :: more)) (files : FileView)
    (input : Source) : session.Follows files line input (typePlan word) := by
  apply follows_of_performs
  rw [registry, Builtin.handle_eq_proceed Builtin.type words rfl rfl,
    Builtin.run_type session.rule files]
  simp only [typePlan, Builtin.mem_names_iff_contains session.rule files]
  split
  · exact proceed_writeOutput _
  · have speaks := List.append_ne_nil_of_right_ne_nil word
      (show ": not found\n".toList ≠ [] by decide)
    exact proceed_writeError (Utf8.encode_ne_nil speaks)

theorem Follows.ends_of_ending {input : Source} {plan : Plan} {status : Int}
    (follows : session.Follows files line input plan) (ending : plan.ending = .ok (.next status))
    (printed said : Bytes) :
    (session.execute files line ⟨input, { stored := printed }, { stored := said }⟩).Ends status
      (printed ++ plan.output) (said ++ plan.diagnostics) := by
  have output := Sink.unfailing_of_stored printed
  have ends := follows.onSinks_unfailing { stored := printed } (Sink.unfailing_of_stored said)
  rw [plan.reached_unfailing output, said_unfailing output, output.keeping_eq, ending, shown,
    List.append_nil] at ends
  exact ⟨congrArg Seen.result ends, congrArg (fun seen => seen.output.stored) ends,
    congrArg (fun seen => seen.error.stored) ends⟩

section Asking

variable {word : Text} {more : List Text}
  (words : Words.split line = some ("type".toList :: word :: more)) (files : FileView)
  (input : Source) (printed said : Bytes)
include words

theorem ends_type_of_mem (known : word ∈ Builtin.names) :
    (session.execute files line ⟨input, { stored := printed }, { stored := said }⟩).Ends 0
      (printed ++ Utf8.encode (word ++ " is a shell builtin\n".toList)) said := by
  have follows := session.follows_typePlan words files input
  rw [typePlan, if_pos known] at follows
  have ends := follows.ends_of_ending rfl printed said
  rwa [Plan.diagnostics, List.append_nil] at ends

theorem ends_type_of_not_mem (unknown : word ∉ Builtin.names) :
    (session.execute files line ⟨input, { stored := printed }, { stored := said }⟩).Ends 1
      printed (said ++ Utf8.encode (word ++ ": not found\n".toList)) := by
  have follows := session.follows_typePlan words files input
  rw [typePlan, if_neg unknown] at follows
  have speaks : Utf8.encode (word ++ ": not found\n".toList) ≠ [] :=
    Utf8.encode_ne_nil (List.append_ne_nil_of_right_ne_nil word (by decide))
  have ending : Plan.ending (.print [] (Utf8.encode (word ++ ": not found\n".toList)) false) =
      .ok (.next 1) := by
    rw [Plan.ending, List.isEmpty_eq_false_iff.mpr speaks]
    rfl
  have ends := follows.ends_of_ending ending printed said
  rwa [Plan.output, List.append_nil] at ends

end Asking
end Session

/-! ## Completing a word -/

namespace Completion

/-- At the end of a word without spaces, the word itself is displayed if it is a command. -/
theorem exists_answer_of_not_mem {word : Text} (noSpace : ' ' ∉ word) (commands : List Text)
    (listing : Option (List Entry)) :
    exists found, answer commands listing word (Utf8.encode word).length = some (0, found) ∧
      ((exists candidate, candidate ∈ found ∧ candidate.display = word) ↔ word ∈ commands) := by
  rcases Cursor.exists_at? word [] with ⟨cursor, stands, ends⟩
  rw [List.append_nil] at stands
  have empty : cursor.before = [] := by
    rcases ends.afterSpace with empty | last
    · exact empty
    · have member : ' ' ∈ cursor.before := List.mem_of_getLast? last
      exact absurd (ends.parts ▸ List.mem_append_left _ member) noSpace
  have typed : cursor.word = word := by
    have parts := ends.parts
    rwa [empty, List.nil_append] at parts
  have first : cursor.before.all Blank.isBlank = true := by
    rw [empty]
    rfl
  have atStart : cursor.start = 0 := by
    rw [Cursor.start, empty]
    rfl
  refine ⟨candidates commands listing cursor, ?_, ?_⟩
  · rw [answer, stands, Option.map_some, atStart]
  · rw [(completes_candidates commands listing cursor).displays]
    constructor
    · rintro ⟨replacement, offer⟩
      cases offer with
      | command _ known _ => exact known
      | entry later _ _ =>
          rw [first] at later
          cases later
    · intro known
      exact ⟨word, .command first known (typed ▸ List.prefix_refl _)⟩

end Completion

namespace Session

/-! ## The agreement -/

/-- Whether a word is a command, at any point of a session.  Carrying out the word alone, over
any input and any output, is answered by a denial exactly if `type` does not find the word,
and exactly if a completer with the names of the session, asked behind the word, does not
display it.  Nothing is printed then.  The other arguments of `type` do not matter, and neither
does what can be listed.  A word with a space in it is completed as several words. -/
theorem agree_on_commands (rule : PathRule) (directory : Path) (steps : List Step)
    (files : FileView) (listing : Option (List Completion.Entry)) {word : Text}
    {more : List Text} {line typeLine : Text} (alone : Words.Renders [word] line)
    (asks : Words.Renders ("type".toList :: word :: more) typeLine) (input other : Source)
    (output : Sink) (printed said : Bytes) :
    let session := (start rule directory).after steps
    let round := session.execute files line ⟨input, output, { stored := said }⟩
    let answer := session.execute files typeLine
      ⟨other, { stored := printed }, { stored := said }⟩
    let isDenied := round.streams.error.stored =
      said ++ Utf8.encode (word ++ ": command not found\n".toList)
    (isDenied -> round.result = .ok (.next 1) ∧ round.streams.output = output) ∧
    (¬ isDenied ↔
      answer.Ends 0 (printed ++ Utf8.encode (word ++ " is a shell builtin\n".toList)) said) ∧
    (isDenied ↔ answer.Ends 1 printed (said ++ Utf8.encode (word ++ ": not found\n".toList))) ∧
    (' ' ∉ word ->
      exists found,
        Completion.answer (session.registry files).names listing word (Utf8.encode word).length =
          some (0, found) ∧
        (¬ isDenied ↔ exists candidate, candidate ∈ found ∧ candidate.display = word)) := by
  intro session round answer isDenied
  have tracked := (holds_after rule directory steps).directory_eq
  have words := Words.split_of_renders alone
  have typeWords := Words.split_of_renders asks
  have denied : isDenied ↔ word ∉ Builtin.names :=
    error_eq_denial_iff words tracked files input output said
  have notBoth : forall {output output' error error'},
      answer.Ends 0 output error -> ¬ answer.Ends 1 output' error' := by
    intro _ _ _ _ zero one
    cases zero.result.symm.trans one.result
  refine ⟨?_, ?_, ?_, ?_⟩
  · intro holds
    have unfailing := Sink.unfailing_of_stored said
    have ends := session.onSinks_of_not_mem words (denied.mp holds) files input output unfailing
    exact ⟨congrArg Seen.result ends, congrArg Seen.output ends⟩
  · rw [denied, not_not]
    constructor
    · exact ends_type_of_mem typeWords files other printed said
    · intro found
      by_contra unknown
      exact notBoth found (ends_type_of_not_mem typeWords files other printed said unknown)
  · rw [denied]
    constructor
    · exact ends_type_of_not_mem typeWords files other printed said
    · intro missing known
      exact notBoth (ends_type_of_mem typeWords files other printed said known) missing
  · intro noSpace
    rcases Completion.exists_answer_of_not_mem noSpace (session.registry files).names listing with
      ⟨found, completed, displayed⟩
    refine ⟨found, completed, ?_⟩
    rw [denied, not_not, displayed, registry, Builtin.names_registry]

/-- The beginning of a name, in quotes, with a name behind it. -/
theorem agree_on_beginning :
    let session := (start .append (Utf8.encode "/w".toList)).after []
    let round := session.execute (.ofRecords []) "'ca'".toList {}
    let answer := session.execute (.ofRecords []) "type ca cat".toList {}
    Words.Renders ["ca".toList] "'ca'".toList ∧
    Words.Renders ["type".toList, "ca".toList, "cat".toList] "type ca cat".toList ∧
    ' ' ∉ "ca".toList ∧
    round.streams.error.stored = Utf8.encode "ca: command not found\n".toList ∧
    answer.Ends 1 [] (Utf8.encode "ca: not found\n".toList) ∧
    exists found,
      Completion.answer (session.registry (.ofRecords [])).names none "ca".toList 2 =
        some (0, found) ∧
      ¬ exists candidate, candidate ∈ found ∧ candidate.display = "ca".toList := by
  intro session round answer
  have quoted : Words.Piece "ca".toList "'ca'".toList := .single (by decide)
  have type : Words.Spelling "type".toList "type".toList :=
    Words.spelling_self (by decide) (by decide) (by decide)
  have ca : Words.Spelling "ca".toList "ca".toList :=
    Words.spelling_self (by decide) (by decide) (by decide)
  have cat : Words.Spelling "cat".toList "cat".toList :=
    Words.spelling_self (by decide) (by decide) (by decide)
  have alone : Words.Renders ["ca".toList] "'ca'".toList :=
    .last .nil (.intro quoted (by decide) .nil)
  have asks : Words.Renders ["type".toList, "ca".toList, "cat".toList] "type ca cat".toList :=
    .cons .nil type rfl (.cons .nil ca rfl (.last .nil cat))
  have noSpace : ' ' ∉ "ca".toList := by decide
  have known := agree_on_commands .append (Utf8.encode "/w".toList) [] (.ofRecords []) none alone
    asks {} {} {} [] []
  have denied : round.streams.error.stored = Utf8.encode "ca: command not found\n".toList := by
    rfl
  rcases known.2.2.2 noSpace with ⟨found, completed, displayed⟩
  exact ⟨alone, asks, noSpace, denied, known.2.2.1.mp denied, found, completed,
    mt displayed.mpr (not_not.mpr denied)⟩

end Session
end MiniShell
