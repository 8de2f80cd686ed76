import MiniShell.Program
import MiniShell.Proofs.Transcript
import MiniShell.Proofs.Trimming

namespace MiniShell

/-!
# One line in either mode

A line can be given as an option, or it can be typed, with a newline behind it.  A line
that is typed is edited and trimmed before it is carried out, and then the shell finds
the end of the input.  This makes no difference for what the line does, on any sinks, so
the two modes differ exactly by the editing.
-/

/-! ## The bytes of a typed line -/

theorem Utf8.newline_not_mem_encodeChar {c : Char} (different : c ≠ '\n') :
    Source.newline ∉ encodeChar c := by
  intro member
  have same : c.toNat = Source.newline.toNat := toNat_of_mem_encodeChar (by decide) member
  exact different (Char.toNat_inj.mp same)

theorem Utf8.newline_not_mem_encode {text : Text} (oneLine : '\n' ∉ text) :
    Source.newline ∉ encode text := by
  intro member
  rcases List.mem_flatMap.mp member with ⟨c, inText, inChar⟩
  exact newline_not_mem_encodeChar (fun same => oneLine (same ▸ inText)) inChar

theorem Source.splitLine_of_not_mem {front : Bytes} (absent : newline ∉ front) (rest : Bytes) :
    splitLine (front ++ newline :: rest) = (front ++ [newline], rest) := by
  induction front with
  | nil => rfl
  | cons byte front ih =>
      rcases not_or.mp (mt List.mem_cons.mpr absent) with ⟨different, later⟩
      rw [List.cons_append, splitLine, if_neg (Ne.symm different), ih later]
      rfl

/-- What is typed is one line, and it is all that there is to read. -/
theorem Source.exists_readLine_encode {line : Text} (oneLine : '\n' ∉ line) :
    exists byte bytes, Utf8.encode (line ++ ['\n']) = byte :: bytes ∧
      (Source.mk (byte :: bytes) none).readLine = (.ok (byte :: bytes), {}) ∧
      Utf8.decode? (byte :: bytes) = some (line ++ ['\n']) := by
  have nonempty : Utf8.encode (line ++ ['\n']) ≠ [] :=
    Utf8.encode_ne_nil (List.append_ne_nil_of_right_ne_nil _ (List.cons_ne_nil _ _))
  rcases List.exists_cons_of_ne_nil nonempty with ⟨byte, bytes, same⟩
  have typed : byte :: bytes = Utf8.encode line ++ newline :: [] :=
    same.symm.trans (Utf8.encode_append line ['\n'])
  refine ⟨byte, bytes, same, ?_, ?_⟩
  · rw [typed, readLine, splitLine_of_not_mem (Utf8.newline_not_mem_encode oneLine)]
  · rw [← same]
    exact Utf8.decode?_encode _

/-! ## One line in either mode -/

namespace Session

open StreamM

variable {session : Session} {files : FileView} {line : Text}

/-- What a line does depends on its words. -/
theorem execute_of_split_eq {other : Text} (same : Words.split line = Words.split other) :
    session.execute files line = session.execute files other := by
  have handled : (session.registry files).handle line session.scope =
      (session.registry files).handle other session.scope := by
    rw [Registry.handle, same, Registry.handle]
  funext streams
  rw [execute, attempt, handled, execute, attempt]

/-- At the end of the input every line leaves it as it is. -/
theorem input_execute_of_ended (output error : Sink) :
    (session.execute files line ⟨{}, output, error⟩).streams.input = {} := by
  by_cases copy : Words.split line = some [Concatenation.name]
  · -- There is nothing to copy, so all that is left to do is to flush the output.
    have copied : Concatenation.copyLines ⟨{}, output, error⟩ = .ok () ⟨{}, output, error⟩ := by
      rw [Concatenation.copyLines]
      rfl
    have handled : (session.registry files).handle line session.scope ⟨{}, output, error⟩ =
        (flush .output >>= fun _ => pure (.next 0)) ⟨{}, output, error⟩ := by
      rw [registry, Builtin.handle_copy copy]
      have joined := proceed_bind_bind Concatenation.copyLines (flush .output) 0
      exact (congrFun joined _).trans (bind_of_ok copied)
    have flushes : KeepsInput (flush .output >>= fun _ => (pure (.next 0) : StreamM Flow)) := by
      rw [flush_eq_send]
      exact .bind (.send .output _ _) fun _ => .lift (.ok (Flow.next 0))
    exact input_execute_of_keepsInput flushes handled
  · exact input_execute copy _

end Session

namespace Interaction

open Session

variable {line meant : Text}

theorem run_of_one_line (files : FileView) (session : Session) (oneLine : '\n' ∉ line)
    (edit : edited? (line ++ ['\n']) = some meant) (output error : Sink) :
    run files ⟨session, 0, ⟨⟨Utf8.encode (line ++ ['\n']), none⟩, output, error⟩⟩ =
      Program.runLine files session meant ⟨{}, output, error⟩ := by
  rcases Source.exists_readLine_encode oneLine with ⟨byte, bytes, same, read, decoded⟩
  rw [same]
  have turned : turn files ⟨session, 0, ⟨⟨byte :: bytes, none⟩, output, error⟩⟩ = _ :=
    turn_of_line read decoded edit
  have ended : (session.execute files meant ⟨{}, output, error⟩).streams.input = {} :=
    input_execute_of_ended output error
  dsimp only at turned
  unfold Program.runLine
  generalize session.execute files meant ⟨{}, output, error⟩ = round at turned ended
  rcases round with ⟨failure | status | code, later, streams⟩
  · exact run_of_stop turned
  · have read : streams.input.readLine = (.ok [], {}) := by
      rw [show streams.input = {} from ended]
      rfl
    rw [run_of_go turned, run_of_stop (turn_of_end read), ← show streams.input = {} from ended]
    rfl
  · exact run_of_stop turned

theorem run_of_one_line_not_editable (files : FileView) (session : Session)
    (oneLine : '\n' ∉ line) (stuck : edited? (line ++ ['\n']) = none) (output error : Sink) :
    run files ⟨session, 0, ⟨⟨Utf8.encode (line ++ ['\n']), none⟩, output, error⟩⟩ =
      (.breakdown, ⟨{}, output, error⟩) := by
  rcases Source.exists_readLine_encode oneLine with ⟨byte, bytes, same, read, decoded⟩
  rw [same]
  exact run_of_stop (turn_of_notEditable read decoded stuck)

/-- With its newline a line loses at most a carriage return. -/
theorem withoutEnd_concat (line : Text) :
    withoutEnd (line ++ ['\n']) = line ∨ line = withoutEnd (line ++ ['\n']) ++ ['\r'] := by
  rcases List.eq_nil_or_concat' line with empty | ⟨front, c, same⟩
  · subst empty
    exact .inl rfl
  · by_cases returns : c = '\r'
    · right
      simp [withoutEnd, same, returns]
    · left
      simp [withoutEnd, same, returns]

/-- Without a backspace, a line that is typed only loses blank characters. -/
theorem edited?_of_not_mem (absent : Grapheme.backspace ∉ line) :
    edited? (line ++ ['\n']) = some (Blank.trim line) := by
  rcases withoutEnd_concat line with same | same
  · rw [edited?, same, Grapheme.applyBackspaces?_of_not_mem absent]
    rfl
  · rw [same, List.mem_append, not_or] at absent
    rw [edited?, Grapheme.applyBackspaces?_of_not_mem absent.1, Option.map_some]
    conv_rhs => rw [same, Blank.trim_concat rfl]

/-- One line of text, typed with a newline behind it as all that there is to read, against the
line as an option and nothing to read, over any sinks.  The line that is typed is carried out as
the editor hands it over, which without a backspace is the trimmed line.  Where trimming is
harmless, and only there, the trimmed line has the words of the line, and then both modes do the
same. -/
theorem run_typed_line (files : FileView) (session : Session) {line : Text}
    (oneLine : '\n' ∉ line) (output error : Sink) :
    let typed := run files
      ⟨session, 0, ⟨{ pending := Utf8.encode (line ++ ['\n']) }, output, error⟩⟩
    let given := fun text => Program.runLine files session text ⟨{}, output, error⟩
    (Grapheme.backspace ∉ line ->
      typed = given (Blank.trim line) ∧ (Words.TrimIsHarmless line -> typed = given line)) ∧
    (Words.split (Blank.trim line) = Words.split line ↔ Words.TrimIsHarmless line) ∧
    (forall meant, edited? (line ++ ['\n']) = some meant -> typed = given meant) ∧
    (edited? (line ++ ['\n']) = none -> typed = (.breakdown, ⟨{}, output, error⟩)) := by
  intro typed given
  have sameWords := Words.split_trim_eq_split_iff oneLine
  refine ⟨?_, sameWords, ?_, ?_⟩
  · intro absent
    have trimmed : typed = given (Blank.trim line) :=
      run_of_one_line files session oneLine (edited?_of_not_mem absent) output error
    refine ⟨trimmed, ?_⟩
    intro harmless
    rw [trimmed]
    dsimp only [given, Program.runLine]
    rw [execute_of_split_eq (sameWords.mpr harmless)]
  · intro meant edit
    exact run_of_one_line files session oneLine edit output error
  · intro stuck
    exact run_of_one_line_not_editable files session oneLine stuck output error

/-- A tab in front separates nothing, and a wide space at the end is part of a comment. -/
theorem run_typed_comment :
    let files : FileView := .ofRecords []
    let session := Session.start .append (Utf8.encode "/".toList)
    let line := "\techo a # done\u3000".toList
    '\n' ∉ line ∧ Grapheme.backspace ∉ line ∧ Words.TrimIsHarmless line ∧
      run files ⟨session, 0, ⟨{ pending := Utf8.encode (line ++ ['\n']) }, {}, {}⟩⟩ =
        Program.runLine files session line {} := by
  intro files session line
  have oneLine : '\n' ∉ line := by decide
  have absent : Grapheme.backspace ∉ line := by decide
  have known := run_typed_line files session oneLine {} {}
  have harmless : Words.TrimIsHarmless line := known.2.1.mp (by decide)
  exact ⟨oneLine, absent, harmless, (known.1 absent).2 harmless⟩

/-- A space that is no separator is part of the last word, unless the line is typed. -/
theorem run_typed_no_break_space :
    let files : FileView := .ofRecords []
    let session := Session.start .replaceFinal (Utf8.encode "/".toList)
    let line := "echo a\u00a0".toList
    run files ⟨session, 0, { input := { pending := Utf8.encode (line ++ ['\n']) } }⟩ ≠
      Program.runLine files session line {} := by
  intro files session line same
  have edit : edited? (line ++ ['\n']) = some "echo a".toList := by decide
  have typed := run_of_one_line files session (by decide) edit {} {}
  have outputs := congrArg (fun ended => ended.2.output.stored) (typed.symm.trans same)
  exact absurd outputs (by decide)

end Interaction
end MiniShell
