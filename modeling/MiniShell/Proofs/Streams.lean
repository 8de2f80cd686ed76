import MiniShell.Streams

namespace MiniShell

/-!
# Computations over streams, step by step

Each step that succeeds hands its streams to the next one, and the first step
that fails ends the computation.  On a sink that keeps every byte and whose
flush does not fail, no operation can be told from appending to what the sink
holds.  On any sink, an operation can only fail with the fault of the sink, so
the other errors of a computation are the ones that it throws itself.
-/

namespace Sink

/-- The sink keeps every byte, and its flush succeeds. -/
structure Unfailing (sink : Sink) : Prop where
  unbounded : sink.capacity = none
  flushes : sink.flushFails = false

def holding (sink : Sink) (bytes : Bytes) : Sink :=
  { sink with stored := sink.stored ++ bytes }

@[simp] theorem holding_nil (sink : Sink) : sink.holding [] = sink := by
  rw [holding, List.append_nil]

theorem flush_eq_ok {sink : Sink} (flushes : sink.flushFails = false) : sink.flush = .ok () := by
  rw [flush, flushes]
  rfl

theorem holding_holding (sink : Sink) (first second : Bytes) :
    (sink.holding first).holding second = sink.holding (first ++ second) := by
  rw [holding, holding, List.append_assoc]
  rfl

theorem unfailing_of_stored (bytes : Bytes) : ({ stored := bytes } : Sink).Unfailing :=
  ⟨rfl, rfl⟩

namespace Unfailing

variable {sink : Sink}

theorem write_eq (unfailing : sink.Unfailing) (bytes : Bytes) :
    sink.write bytes = (.ok (), sink.holding bytes) := by
  simp only [write, fitting, unfailing.unbounded, if_true, holding]

theorem flush_eq (unfailing : sink.Unfailing) : sink.flush = .ok () :=
  flush_eq_ok unfailing.flushes

theorem holding (unfailing : sink.Unfailing) (bytes : Bytes) :
    (sink.holding bytes).Unfailing :=
  ⟨unfailing.unbounded, unfailing.flushes⟩

end Unfailing
end Sink

namespace StreamM

variable {α β : Type}

theorem bind_of_ok {streams middle : Streams} {run : StreamM α} {next : α -> StreamM β} {value : α}
    (first : run streams = .ok value middle) :
    (run >>= next) streams = next value middle := by
  change EStateM.bind run next streams = _
  rw [EStateM.bind, first]

theorem bind_of_error {streams middle : Streams} {run : StreamM α} {next : α -> StreamM β}
    {error : ShellError} (first : run streams = .error error middle) :
    (run >>= next) streams = .error error middle := by
  change EStateM.bind run next streams = _
  rw [EStateM.bind, first]

theorem write_eq (channel : Channel) {streams : Streams}
    (unfailing : (streams.sink channel).Unfailing) (bytes : Bytes) :
    write channel bytes streams =
      .ok () (streams.withSink channel ((streams.sink channel).holding bytes)) := by
  rw [write, unfailing.write_eq]
  rfl

theorem flush_eq (channel : Channel) {streams : Streams}
    (flushes : (streams.sink channel).flushFails = false) :
    flush channel streams = .ok () streams := by
  rw [flush, Sink.flush_eq_ok flushes]
  rfl

/-! ## The errors of a computation -/

/-- The computation fails only with these errors. -/
def FailsOnly (allowed : ShellError -> Prop) (run : StreamM α) : Prop :=
  forall streams error after, run streams = .error error after -> allowed error

namespace FailsOnly

variable {allowed : ShellError -> Prop}

theorem pure (value : α) : FailsOnly allowed (Pure.pure value : StreamM α) := by
  intro streams error after failed
  cases failed

theorem throw {error : ShellError} (fine : allowed error) :
    FailsOnly allowed (MonadExcept.throw error : StreamM α) := by
  intro streams other after failed
  cases failed
  exact fine

theorem lift_ok (value : α) : FailsOnly allowed (StreamM.lift (.ok value)) := by
  intro streams error after failed
  cases failed

theorem bind {run : StreamM α} {next : α -> StreamM β} (first : FailsOnly allowed run)
    (second : forall value, FailsOnly allowed (next value)) :
    FailsOnly allowed (run >>= next) := by
  intro streams error after failed
  cases result : run streams with
  | ok value middle =>
      rw [bind_of_ok result] at failed
      exact second value middle error after failed
  | error earlier middle =>
      rw [bind_of_error result] at failed
      injection failed with same
      subst same
      exact first streams _ _ result

theorem settle {streams after : Streams} {result : Except Fault α} {error : ShellError}
    (io : forall fault, allowed (.io fault))
    (failed : StreamM.settle streams result = .error error after) : allowed error := by
  cases result with
  | ok value => cases failed
  | error fault =>
      cases failed
      exact io fault

theorem write (io : forall fault, allowed (.io fault)) (channel : Channel) (bytes : Bytes) :
    FailsOnly allowed (StreamM.write channel bytes) :=
  fun _ _ _ failed => settle io failed

theorem flush (io : forall fault, allowed (.io fault)) (channel : Channel) :
    FailsOnly allowed (StreamM.flush channel) :=
  fun _ _ _ failed => settle io failed

end FailsOnly
end StreamM
end MiniShell
