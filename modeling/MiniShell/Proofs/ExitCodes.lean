import MiniShell.Proofs.Agreement
import MiniShell.Proofs.Numerals

namespace MiniShell

/-!
# The code of a line that ends the shell

Whether a line ends the shell depends on its first word alone, and the code depends on its
second word alone.  A number that fits in thirty-two bits is the code, and every other word
counts as zero, as if it had not been given.

A process can only report the last eight bits of its code.  They are the remainder that lies
between zero and two hundred and fifty-five, also below zero, since two hundred and fifty-six
divides the number of all words.
-/

/-! ## From the second word to the code -/

namespace Builtin

/-- The first argument is a number that fits, namely this one. -/
def AsksFor (arguments : List Text) (code : Int) : Prop :=
  exists word, arguments.head? = some word ∧ Decimal.Numeral word code ∧
    Decimal.FitsWord32 code

variable {arguments : List Text} {code : Int}

theorem asksFor_iff :
    AsksFor arguments code ↔ arguments.head?.bind Decimal.word32? = some code := by
  rw [Option.bind_eq_some_iff]
  apply exists_congr
  intro word
  rw [Decimal.word32?_eq_some_iff]

theorem requestedCode_of_asksFor (asks : AsksFor arguments code) :
    requestedCode arguments = code := by
  rw [requestedCode, asksFor_iff.mp asks]
  rfl

theorem requestedCode_of_asksFor_none (none : forall code, ¬ AsksFor arguments code) :
    requestedCode arguments = 0 := by
  have noNumber : arguments.head?.bind Decimal.word32? = Option.none := by
    apply Option.eq_none_iff_forall_ne_some.mpr
    intro code asked
    exact none code (asksFor_iff.mpr asked)
  rw [requestedCode, noNumber]
  rfl

theorem fitsWord32_requestedCode (arguments : List Text) :
    Decimal.FitsWord32 (requestedCode arguments) := by
  by_cases asks : exists code, AsksFor arguments code
  · rcases asks with ⟨code, asks⟩
    rw [requestedCode_of_asksFor asks]
    exact asks.choose_spec.2.2
  · rw [requestedCode_of_asksFor_none (not_exists.mp asks)]
    decide

theorem requestedCode_eq_stepwise (arguments : List Text) :
    requestedCode arguments = (arguments.head?.bind Decimal.stepwise?).getD 0 := by
  rw [requestedCode, funext Decimal.stepwise?_eq_word32?]

end Builtin

/-! ## From the code to the process -/

namespace Program

/-- The last eight bits of a word, which is negative if its first bit is set. -/
def lastBits (code : Int) : Nat :=
  (BitVec.ofInt 32 code &&& 0xFF#32).toNat

theorem lastBits_eq_exitCode (code : Int) : lastBits code = exitCode code := by
  have mask : (0xFF#32).toNat = 2 ^ 8 - 1 := by decide
  rw [lastBits, exitCode, BitVec.toNat_and, BitVec.toNat_ofInt, mask,
    Nat.and_two_pow_sub_one_eq_mod]
  omega

theorem exitCode_eq_emod (code : Int) : (exitCode code : Int) = code % 256 :=
  Int.toNat_of_nonneg (Int.emod_nonneg code (by decide))

/-- Without a session there is nothing but a complaint. -/
theorem run_of_no_session {surroundings : Surroundings} {options : Options} {error : ShellError}
    (given : Options.parse surroundings.arguments surroundings.environment = .ok options)
    (fails : options.session? surroundings.directory = .error error) :
    run surroundings = ⟨1, [], complaint error⟩ := by
  rw [run, given]
  dsimp only
  rw [fails]
  rfl

/-- A process that carries out a single line ends as the line asks for. -/
theorem code_run_of_exit {surroundings : Surroundings} {options : Options} {session : Session}
    {line : Text} {arguments : List Text}
    (given : Options.parse surroundings.arguments surroundings.environment = .ok options)
    (begins : options.session? surroundings.directory = .ok session)
    (oneShot : options.command = some line)
    (words : Words.split line = some (Builtin.exit.name :: arguments)) :
    (run surroundings).code = exitCode (Builtin.requestedCode arguments) := by
  have flushes : ({ input := { pending := surroundings.input } } : Streams).error.flushFails =
      false := rfl
  have ended := session.execute_exit surroundings.files words flushes
  rw [run, given]
  simp only [begins, oneShot, runLine, ended]
  rfl

end Program

/-! ## Lines that end the shell -/

namespace Session

/-- Which lines end the shell, in any session and over any streams if only the error stream can
be flushed, and with which code.  The line begins with the word `exit`.  If the next word is a
number of thirty-two bits, then this is the code, and the number may be written with superfluous
zeros, a sign, or as numbers are written by the shell.  Otherwise the code is zero.  The code can
be found without ever leaving the range.  A process that carries out this line alone reports the
last eight bits of the code, which are its remainder modulo two hundred and fifty-six, unless
the process finds no directory for its session and never comes to the line. -/
theorem ends_with_code (session : Session) (files : FileView) (line : Text) (streams : Streams)
    (flushes : streams.error.flushFails = false) :
    let round := session.execute files line streams
    ((exists code, round.result = .ok (.exit code)) ↔
      exists arguments, Words.split line = some ("exit".toList :: arguments)) ∧
    forall arguments, Words.split line = some ("exit".toList :: arguments) ->
      exists code, round.result = .ok (.exit code) ∧ Decimal.FitsWord32 code ∧
        (forall value, Builtin.AsksFor arguments value -> code = value) ∧
        ((forall value, ¬ Builtin.AsksFor arguments value) -> code = 0) ∧
        (forall value, Decimal.FitsWord32 value ->
          arguments.head? = some (Decimal.ofInt value) -> code = value) ∧
        code = (arguments.head?.bind Decimal.stepwise?).getD 0 ∧
        forall surroundings options,
          Options.parse surroundings.arguments surroundings.environment = .ok options ->
          options.command = some line ->
            match options.session? surroundings.directory with
            | .ok _ =>
                (Program.run surroundings).code = Program.lastBits code ∧
                  ((Program.run surroundings).code : Int) = code % 256
            | .error _ => (Program.run surroundings).code = 1 := by
  intro round
  have ends : forall arguments, Words.split line = some (Builtin.exit.name :: arguments) ->
      round.result = .ok (.exit (Builtin.requestedCode arguments)) := by
    intro arguments words
    exact congrArg Round.result (session.execute_exit files words flushes)
  refine ⟨⟨?_, ?_⟩, ?_⟩
  · rintro ⟨code, ended⟩
    exact words_of_result_eq_exit ended
  · rintro ⟨arguments, words⟩
    exact ⟨_, ends arguments words⟩
  · intro arguments words
    refine ⟨Builtin.requestedCode arguments, ends arguments words,
      Builtin.fitsWord32_requestedCode arguments, ?_, Builtin.requestedCode_of_asksFor_none, ?_,
      Builtin.requestedCode_eq_stepwise arguments, ?_⟩
    · intro value asks
      exact Builtin.requestedCode_of_asksFor asks
    · intro value fits written
      exact Builtin.requestedCode_of_asksFor
        ⟨Decimal.ofInt value, written, Decimal.numeral_ofInt value, fits⟩
    · intro surroundings options given oneShot
      cases begins : options.session? surroundings.directory with
      | ok begun =>
          dsimp only
          rw [Program.code_run_of_exit given begins oneShot words, Program.lastBits_eq_exitCode]
          exact ⟨rfl, Program.exitCode_eq_emod _⟩
      | error error => exact congrArg Program.Report.code (Program.run_of_no_session given begins)

/-- A code below zero with superfluous zeros, and an error stream without any room. -/
theorem ends_with_code_below_zero :
    let session := start .append (Utf8.encode "/".toList)
    let line := "exit -00300 9".toList
    let streams : Streams := { error := { capacity := some 0 } }
    let surroundings : Program.Surroundings :=
      { arguments := ["-c".toList, line].map Utf8.encode, directory := .ok [] }
    streams.error.flushFails = false ∧
      (session.execute (.ofRecords []) line streams).result = .ok (.exit (-300)) ∧
      (Program.run surroundings).code = 212 := by
  intro session line streams surroundings
  have flushes : streams.error.flushFails = false := rfl
  have words : Words.split line = some ["exit".toList, "-00300".toList, "9".toList] := by decide
  have number : Decimal.Numeral "-00300".toList (-300) :=
    @Decimal.Numeral.minus "00300".toList (by decide) (by decide)
  have asks : Builtin.AsksFor ["-00300".toList, "9".toList] (-300) :=
    ⟨_, rfl, number, by decide⟩
  rcases (ends_with_code session (.ofRecords []) line streams flushes).2 _ words with
    ⟨code, ended, -, asked, -, -, -, reported⟩
  have same := asked _ asks
  subst same
  have read : (surroundings.arguments.map Token.ofArgument).foldlM Options.step {} =
      .ok { unfinished := .unchecked .command (Utf8.encode line) } := by rfl
  have accepted : Options.accept {} .command (Utf8.encode line) =
      .ok { command := some line } := by
    simp only [Options.accept, Utf8.decode?_encode]
    rfl
  have given : Options.parse surroundings.arguments surroundings.environment =
      .ok ⟨some line, .replaceFinal, none⟩ := by
    rw [Options.parse, read]
    change Options.accept {} .command (Utf8.encode line) >>= _ = _
    rw [accepted]
    rfl
  have process := (reported surroundings _ given rfl).2
  exact ⟨flushes, ended, Int.natCast_inj.mp process⟩

end Session
end MiniShell
