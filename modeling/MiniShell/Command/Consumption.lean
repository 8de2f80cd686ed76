import MiniShell.Command.Composition

namespace MiniShell
namespace StreamM

/-!
# Commands only take from the input

What is left to read after a command of the shell is a final part of what was
left before.  No command puts anything back, so a shell that reads its lines
from the same input comes to an end.
-/

variable {α β : Type}

/-- The streams in which a computation ends, whether it fails or not. -/
def after : EStateM.Result ShellError Streams α -> Streams
  | .ok _ streams => streams
  | .error _ streams => streams

/-- The computation leaves a final part of the input. -/
def OnlyReads (run : StreamM α) : Prop :=
  forall streams, (after (run streams)).input.pending <:+ streams.input.pending

namespace OnlyReads

theorem pure (value : α) : OnlyReads (Pure.pure value : StreamM α) :=
  fun _ => List.suffix_rfl

theorem throw (error : ShellError) : OnlyReads (MonadExcept.throw error : StreamM α) :=
  fun _ => List.suffix_rfl

theorem lift (value : Except ShellError α) : OnlyReads (StreamM.lift value) := by
  cases value with
  | ok value => exact fun _ => List.suffix_rfl
  | error error => exact fun _ => List.suffix_rfl

theorem bind {run : StreamM α} {next : α -> StreamM β} (first : OnlyReads run)
    (second : forall value, OnlyReads (next value)) : OnlyReads (run >>= next) := by
  intro streams
  have reached := first streams
  change (after (EStateM.bind run next streams)).input.pending <:+ _
  unfold EStateM.bind
  cases result : run streams with
  | ok value middle =>
      rw [result] at reached
      exact (second value middle).trans reached
  | error error middle =>
      rw [result] at reached
      exact reached

theorem settle (before : Streams) (result : Except Fault α) (streams : Streams)
    (suffix : streams.input.pending <:+ before.input.pending) :
    (after (StreamM.settle streams result)).input.pending <:+ before.input.pending := by
  cases result with
  | ok value => exact suffix
  | error fault => exact suffix

theorem write (channel : Channel) (bytes : Bytes) : OnlyReads (StreamM.write channel bytes) := by
  intro streams
  have same := streams.input_withSink channel ((streams.sink channel).write bytes).2
  exact settle streams _ _ (same ▸ List.suffix_rfl)

theorem flush (channel : Channel) : OnlyReads (StreamM.flush channel) :=
  fun streams => settle streams _ _ List.suffix_rfl

end OnlyReads
end StreamM

open StreamM

theorem Source.readLine_suffix (source : Source) :
    source.readLine.2.pending <:+ source.pending :=
  ⟨(splitLine source.pending).1, splitLine_append source.pending⟩

theorem Concatenation.onlyReads_copyLines : OnlyReads Concatenation.copyLines := by
  intro streams
  induction streams using Concatenation.copyLines.induct with
  | case1 streams fault input read =>
      have taken := Source.readLine_suffix streams.input
      rw [Concatenation.copyLines, read]
      rw [read] at taken
      exact taken
  | case2 streams input read =>
      have taken := Source.readLine_suffix streams.input
      rw [Concatenation.copyLines, read]
      rw [read] at taken
      exact taken
  | case3 streams byte line input read output written ih =>
      have taken := Source.readLine_suffix streams.input
      rw [Concatenation.copyLines, read]
      rw [read] at taken
      simp only [written]
      exact ih.trans taken
  | case4 streams byte line input read fault output written =>
      have taken := Source.readLine_suffix streams.input
      rw [Concatenation.copyLines, read]
      rw [read] at taken
      simp only [written]
      exact taken

/-- Every step of a command only takes from the input, and hence so does every line. -/
theorem StreamM.compositional_onlyReads (scope : Variables) : Compositional scope OnlyReads where
  value := .pure
  sequence := .bind
  directory := .lift _
  write := .write
  flush := .flush
  copyLines := Concatenation.onlyReads_copyLines
  fatal := fun _ => .throw _
  invalidQuoting := .throw _
  commandNotFound := fun _ => .throw _

end MiniShell
