import MiniShell.Session
import MiniShell.Text.Blank
import MiniShell.Text.Grapheme

namespace MiniShell

/-!
# Reading lines from the input

Without a line of its own to carry out, the shell takes its lines from the
input, and commands read the same input.  Each line is edited as it was typed:
its end is taken off, backspaces erase what stands before them, and blank
characters at both ends are dropped.  The shell ends with the status of the
last line when the input ends, with a code when a line asks for that, and with
an error when a line is no text.  It breaks down at a line that cannot be edited.

Every turn takes at least one byte from the input and no command puts any
back, so `run` is total.
-/

/-- A shell that takes its lines from the input. -/
structure Interaction where
  session : Session
  /-- The status of the last line, and zero before the first. -/
  status : Int := 0
  streams : Streams

namespace Interaction

/-- A line without its end: a newline, or a carriage return and a newline. -/
def withoutEnd (line : Text) : Text :=
  match line.reverse with
  | '\n' :: '\r' :: reversed => reversed.reverse
  | '\n' :: reversed => reversed.reverse
  | _ => line

/-- The line that was meant by what was typed, if it can be edited. -/
def edited? (line : Text) : Option Text :=
  (Grapheme.applyBackspaces? (withoutEnd line)).map Blank.trim

def unreadable (description : Text) : ShellError :=
  .input ("Readline error: ".toList ++ description)

def notText : Text := "stream did not contain valid UTF-8".toList

inductive Ending where
  /-- With a status, or with the code that a line has asked for. -/
  | code (value : Int)
  | failure (error : ShellError)
  /-- In the middle of editing a line. -/
  | breakdown
  deriving DecidableEq, Repr

/-- The ending of a shell that carries out a single line. -/
def Ending.ofResult : Except ShellError Flow -> Ending
  | .ok (.next status) => .code status
  | .ok (.exit requested) => .code requested
  | .error error => .failure error

inductive Turn where
  | go (interaction : Interaction)
  | stop (ending : Ending) (streams : Streams)

/-- Take one line from the input and carry it out. -/
def turn (files : FileView) (interaction : Interaction) : Turn :=
  match interaction.streams.input.readLine with
  | (.error fault, input) =>
      .stop (.failure (unreadable fault.description))
        { interaction.streams with input := input }
  | (.ok [], input) =>
      .stop (.code interaction.status) { interaction.streams with input := input }
  | (.ok (byte :: bytes), input) =>
      let streams := { interaction.streams with input := input }
      match Utf8.decode? (byte :: bytes) with
      | none => .stop (.failure (unreadable notText)) streams
      | some typed =>
          match edited? typed with
          | none => .stop .breakdown streams
          | some line =>
              let round := interaction.session.execute files line streams
              match round.result with
              | .ok (.next status) => .go ⟨round.session, status, round.streams⟩
              | .ok (.exit code) => .stop (.code code) round.streams
              | .error error => .stop (.failure error) round.streams

/-- A turn that is not the last one has taken a line, and the session went on after it. -/
theorem execute_of_turn_eq_go {files : FileView} {interaction next : Interaction}
    (went : turn files interaction = .go next) :
    exists byte bytes input line round,
      interaction.streams.input.readLine = (.ok (byte :: bytes), input) ∧
      (Utf8.decode? (byte :: bytes)).bind edited? = some line ∧
      interaction.session.execute files line { interaction.streams with input := input } =
        round ∧
      round.result = .ok (.next next.status) ∧
      next = ⟨round.session, next.status, round.streams⟩ := by
  unfold turn at went
  split at went
  · cases went
  · cases went
  · next byte bytes input read =>
      dsimp only at went
      split at went
      · cases went
      · next typed decoded =>
          split at went
          · cases went
          · next line edit =>
              split at went
              · next status result =>
                  injection went with same
                  subst same
                  have meant : (Utf8.decode? (byte :: bytes)).bind edited? = some line := by
                    rw [decoded]
                    exact edit
                  exact ⟨byte, bytes, input, line, _, read, meant, rfl, result, rfl⟩
              · cases went
              · cases went

theorem length_lt_of_turn_eq_go {files : FileView} {interaction next : Interaction}
    (went : turn files interaction = .go next) :
    next.streams.input.pending.length < interaction.streams.input.pending.length := by
  rcases execute_of_turn_eq_go went with
    ⟨byte, bytes, input, line, round, read, _, executed, _, same⟩
  have shorter := Source.length_lt_of_readLine_ok read
  have kept := (interaction.session.execute_input_suffix files line
    { interaction.streams with input := input }).length_le
  rw [executed] at kept
  rw [same]
  exact Nat.lt_of_le_of_lt kept shorter

/-- Take turns until the shell ends. -/
def run (files : FileView) (interaction : Interaction) : Ending × Streams :=
  match _ : turn files interaction with
  | .stop ending streams => (ending, streams)
  | .go next => run files next
termination_by interaction.streams.input.pending.length
decreasing_by
  exact length_lt_of_turn_eq_go (by assumption)

theorem run_of_stop {files : FileView} {interaction : Interaction} {ending : Ending}
    {streams : Streams} (stopped : turn files interaction = .stop ending streams) :
    run files interaction = (ending, streams) := by
  rw [run]
  split
  · next other after result =>
      rw [stopped] at result
      cases result
      rfl
  · next later result =>
      rw [stopped] at result
      cases result

theorem run_of_go {files : FileView} {interaction next : Interaction}
    (went : turn files interaction = .go next) :
    run files interaction = run files next := by
  rw [run]
  split
  · next ending streams result =>
      rw [went] at result
      cases result
  · next other result =>
      rw [went] at result
      cases result
      rfl

end Interaction
end MiniShell
