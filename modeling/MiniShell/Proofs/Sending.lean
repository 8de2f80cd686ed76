import MiniShell.Proofs.Streams

namespace MiniShell

/-!
# Sending bytes

Writing and then flushing, if a flush is asked for, is one step here.  What the
step does to a sink and what comes of it are two separate things: the sink keeps
what fits, whatever is flushed, and the step fails if something did not fit or if
the flush fails.  Sending in parts is sending at once, and after a part that did
not fit nothing more is kept.

What is seen of a computation is its result and its two sinks.  Computations
that leave different amounts of the input behind can be seen to be the same.
-/

/-! ## What fits -/

namespace Sink

variable {sink : Sink}

/-- There is room for all of the bytes. -/
def Fits (sink : Sink) (bytes : Bytes) : Prop :=
  (sink.fitting bytes).length = bytes.length

instance decidableFits (sink : Sink) (bytes : Bytes) : Decidable (sink.Fits bytes) :=
  inferInstanceAs (Decidable ((sink.fitting bytes).length = bytes.length))

/-- The sink after the bytes, or after as many of them as fit. -/
def keeping (sink : Sink) (bytes : Bytes) : Sink :=
  { sink with stored := sink.stored ++ sink.fitting bytes }

/-- What comes of writing the bytes and then flushing, if that is asked for. -/
def send (sink : Sink) (bytes : Bytes) (flushes : Bool) : Except Fault Unit :=
  if sink.Fits bytes then if flushes then sink.flush else .ok () else .error full

@[simp] theorem fitting_nil (sink : Sink) : sink.fitting [] = [] := by
  unfold fitting
  split <;> simp

@[simp] theorem keeping_nil (sink : Sink) : sink.keeping [] = sink := by
  rw [keeping, fitting_nil, List.append_nil]

theorem send_nil_eq (sink : Sink) (flushes : Bool) :
    sink.send [] flushes = if flushes then sink.flush else .ok () :=
  if_pos (congrArg List.length sink.fitting_nil)

@[simp] theorem send_nil (sink : Sink) : sink.send [] false = .ok () :=
  sink.send_nil_eq false

theorem isPrefix_fitting (sink : Sink) (bytes : Bytes) : sink.fitting bytes <+: bytes := by
  unfold fitting
  split
  · exact List.prefix_rfl
  · exact List.take_prefix _ _

theorem length_fitting_le (sink : Sink) (bytes : Bytes) :
    (sink.fitting bytes).length ≤ bytes.length :=
  (sink.isPrefix_fitting bytes).length_le

theorem fits_iff_fitting_eq {bytes : Bytes} : sink.Fits bytes ↔ sink.fitting bytes = bytes :=
  ⟨(sink.isPrefix_fitting bytes).eq_of_length, congrArg List.length⟩

theorem fitting_append (sink : Sink) (first second : Bytes) :
    sink.fitting (first ++ second) =
      sink.fitting first ++ (sink.keeping first).fitting second := by
  rcases sink with ⟨stored, capacity, flushFails⟩
  cases capacity with
  | none => rfl
  | some capacity =>
      simp only [keeping, fitting, List.take_append, List.length_append, List.length_take]
      congr 2
      omega

@[simp] theorem keeping_keeping (sink : Sink) (first second : Bytes) :
    (sink.keeping first).keeping second = sink.keeping (first ++ second) := by
  simp only [keeping, fitting_append, List.append_assoc]

theorem fits_append (sink : Sink) (first second : Bytes) :
    sink.Fits (first ++ second) ↔ sink.Fits first ∧ (sink.keeping first).Fits second := by
  have front := sink.length_fitting_le first
  have back := (sink.keeping first).length_fitting_le second
  unfold Fits
  rw [fitting_append, List.length_append, List.length_append]
  omega

/-- Once something did not fit, there is no room left. -/
theorem fitting_keeping_of_not_fits {first : Bytes} (tooMuch : ¬ sink.Fits first)
    (second : Bytes) : (sink.keeping first).fitting second = [] := by
  rcases sink with ⟨stored, capacity, flushFails⟩
  cases capacity with
  | none => exact absurd rfl tooMuch
  | some capacity =>
      simp only [Fits, keeping, fitting, List.length_append, List.length_take] at tooMuch ⊢
      apply List.take_eq_nil_iff.mpr
      left
      omega

theorem keeping_append_of_not_fits {first : Bytes} (tooMuch : ¬ sink.Fits first)
    (second : Bytes) : sink.keeping (first ++ second) = sink.keeping first := by
  rw [← keeping_keeping, keeping, fitting_keeping_of_not_fits tooMuch, List.append_nil]

theorem not_fits_keeping {first second : Bytes} (tooMuch : ¬ sink.Fits first)
    (more : second ≠ []) : ¬ (sink.keeping first).Fits second := by
  rw [Fits, fitting_keeping_of_not_fits tooMuch]
  exact fun same => more (List.length_eq_zero_iff.mp same.symm)

/-- How much fits into a bounded sink that holds nothing yet. -/
theorem fits_iff_of_capacity {capacity : Nat} (bounded : sink.capacity = some capacity)
    (empty : sink.stored = []) (bytes : Bytes) : sink.Fits bytes ↔ bytes.length ≤ capacity := by
  simp only [Fits, fitting, bounded, empty, List.length_nil, Nat.sub_zero, List.length_take]
  omega

theorem send_of_fits {bytes : Bytes} (room : sink.Fits bytes) :
    sink.send bytes false = .ok () := by
  rw [send, if_pos room]
  rfl

theorem send_of_not_fits {bytes : Bytes} {flushes : Bool} (tooMuch : ¬ sink.Fits bytes) :
    sink.send bytes flushes = .error full :=
  if_neg tooMuch

theorem not_fits_of_send_eq_error {bytes : Bytes} {fault : Fault}
    (failed : sink.send bytes false = .error fault) : ¬ sink.Fits bytes := by
  intro room
  rw [send_of_fits room] at failed
  cases failed

theorem send_eq_ok_iff {bytes : Bytes} {flushes : Bool} :
    sink.send bytes flushes = .ok () ↔
      sink.Fits bytes ∧ (flushes = true -> sink.flushFails = false) := by
  unfold send flush
  by_cases room : sink.Fits bytes
  · cases flushes <;> cases sink.flushFails <;> simp [room]
  · simp [room]

theorem send_eq_of_flushes (flushes : sink.flushFails = false) (bytes : Bytes)
    (first second : Bool) : sink.send bytes first = sink.send bytes second := by
  have flushed : sink.flush = .ok () := by
    rw [flush, flushes]
    rfl
  simp only [send, flushed, ite_self]

theorem exists_send_eq_error (unflushed : sink.flushFails = true) (bytes : Bytes) :
    exists fault, sink.send bytes true = .error fault := by
  unfold send
  split
  · exact ⟨Sink.unflushed, by rw [if_pos rfl, flush, unflushed]; rfl⟩
  · exact ⟨full, rfl⟩

theorem send_append (sink : Sink) (first second : Bytes) (flushes : Bool) :
    sink.send (first ++ second) flushes =
      match sink.send first false with
      | .ok () => (sink.keeping first).send second flushes
      | .error fault => .error fault := by
  unfold send
  by_cases front : sink.Fits first
  · simp only [fits_append, front, true_and, if_true, Bool.false_eq_true, if_false]
    rfl
  · simp only [fits_append, front, false_and, if_false]

theorem Unfailing.fits (unfailing : sink.Unfailing) (bytes : Bytes) : sink.Fits bytes := by
  rw [Fits, fitting, unfailing.unbounded]

theorem Unfailing.send_eq (unfailing : sink.Unfailing) (bytes : Bytes) (flushes : Bool) :
    sink.send bytes flushes = .ok () := by
  rw [send, if_pos (unfailing.fits bytes), unfailing.flush_eq, ite_self]

theorem Unfailing.keeping_eq (unfailing : sink.Unfailing) (bytes : Bytes) :
    sink.keeping bytes = sink.holding bytes := by
  simp only [keeping, fitting, unfailing.unbounded, Sink.holding]

end Sink

namespace StreamM

variable {α β : Type}

/-- Write to a sink, and flush it if that is asked for. -/
def send (channel : Channel) (bytes : Bytes) (flushes : Bool) : StreamM Unit := do
  write channel bytes
  if flushes then flush channel

/-- Writing and flushing in turn are one sending. -/
theorem send_eq (channel : Channel) (bytes : Bytes) (flushes : Bool) (streams : Streams) :
    send channel bytes flushes streams =
      settle (streams.withSink channel ((streams.sink channel).keeping bytes))
        ((streams.sink channel).send bytes flushes) := by
  have wrote : write channel bytes streams =
      settle (streams.withSink channel ((streams.sink channel).keeping bytes))
        ((streams.sink channel).send bytes false) := rfl
  rw [send]
  by_cases room : (streams.sink channel).Fits bytes
  · rw [Sink.send, if_pos room] at wrote ⊢
    rw [bind_of_ok wrote]
    cases flushes with
    | false => rfl
    | true =>
        rw [if_pos rfl, if_pos rfl, flush, Streams.sink_withSink]
        rfl
  · rw [Sink.send, if_neg room] at wrote ⊢
    exact bind_of_error wrote

theorem send_false (channel : Channel) (bytes : Bytes) :
    send channel bytes false = write channel bytes :=
  bind_pure _

@[simp] theorem send_nil (channel : Channel) : send channel [] false = pure () := by
  funext streams
  rw [send_eq, Sink.keeping_nil, Sink.send_nil, Streams.withSink_sink]
  rfl

/-- A sequence goes by what its first part comes to. -/
theorem bind_eq_of_eq {first second : StreamM α} {next : α -> StreamM β} {streams others : Streams}
    (same : first streams = second others) :
    (first >>= next) streams = (second >>= next) others := by
  change EStateM.bind first next streams = EStateM.bind second next others
  rw [EStateM.bind, EStateM.bind, same]

/-- A flush is a sending of nothing. -/
theorem flush_eq_send (channel : Channel) : flush channel = send channel [] true := by
  funext streams
  rw [send_eq, Sink.keeping_nil, Sink.send_nil_eq, Streams.withSink_sink]
  rfl

/-- Sending in two parts is sending at once. -/
theorem send_append (channel : Channel) (first second : Bytes) (flushes : Bool) :
    (send channel first false >>= fun _ => send channel second flushes) =
      send channel (first ++ second) flushes := by
  funext streams
  have front := send_eq channel first false streams
  rw [send_eq, Sink.send_append]
  cases sent : (streams.sink channel).send first false with
  | error fault =>
      rw [sent] at front
      rw [bind_of_error front,
        Sink.keeping_append_of_not_fits (Sink.not_fits_of_send_eq_error sent)]
      rfl
  | ok value =>
      rw [sent] at front
      rw [bind_of_ok front, send_eq, Streams.sink_withSink, Streams.withSink_withSink,
        Sink.keeping_keeping]

/-! ## What is seen of a computation -/

/-- The result of a computation and its sinks, without what is left of the input. -/
structure Seen (α : Type) where
  result : Except ShellError α
  output : Sink
  error : Sink

def seen : EStateM.Result ShellError Streams α -> Seen α
  | .ok value streams => ⟨.ok value, streams.output, streams.error⟩
  | .error error streams => ⟨.error error, streams.output, streams.error⟩

/-- The ending of a computation, unless bytes that it sends first do not arrive. -/
def unlessFault (sent : Except Fault Unit) (ending : Except ShellError α) :
    Except ShellError α :=
  match sent with
  | .ok () => ending
  | .error fault => .error (.io fault)

/-- A computation may be exchanged for one that does the same to the sinks, if what follows
does not look at the input. -/
theorem seen_bind_congr {first second : StreamM α} {next : α -> StreamM β} {streams : Streams}
    (same : seen (first streams) = seen (second streams))
    (blind : forall value input other output error,
      seen (next value ⟨input, output, error⟩) = seen (next value ⟨other, output, error⟩)) :
    seen ((first >>= next) streams) = seen ((second >>= next) streams) := by
  cases one : first streams with
  | ok value middle =>
      cases two : second streams with
      | ok value' middle' =>
          rw [one, two] at same
          injection same with sameResult sameOutput sameError
          rcases middle with ⟨input, output, error⟩
          cases sameResult
          subst sameOutput sameError
          rw [bind_of_ok one, bind_of_ok two]
          exact blind value _ _ _ _
      | error failure middle' =>
          rw [one, two] at same
          cases same
  | error failure middle =>
      cases two : second streams with
      | ok value middle' =>
          rw [one, two] at same
          cases same
      | error failure' middle' =>
          rw [one, two] at same
          rw [bind_of_error one, bind_of_error two]
          injection same with sameResult sameOutput sameError
          cases sameResult
          simp only [seen, sameOutput, sameError]

theorem unlessFault_eq_ok_iff {sent : Except Fault Unit} {ending : Except ShellError α}
    {value : α} : unlessFault sent ending = .ok value ↔ sent = .ok () ∧ ending = .ok value := by
  cases sent with
  | ok sent => simp only [unlessFault, true_and]
  | error fault => simp only [unlessFault, reduceCtorEq, false_and]

theorem seen_settle_lift {run : StreamM Unit} {streams middle : Streams}
    {sent : Except Fault Unit} (settled : run streams = settle middle sent)
    (ending : Except ShellError α) :
    seen ((run >>= fun _ => lift ending) streams) =
      ⟨unlessFault sent ending, middle.output, middle.error⟩ := by
  cases sent with
  | error fault =>
      rw [bind_of_error settled]
      rfl
  | ok value =>
      rw [bind_of_ok settled]
      cases ending <;> rfl

/-- A computation that sends something and comes to an end changes nothing but the sink. -/
theorem seen_send_lift (channel : Channel) (bytes : Bytes) (flushes : Bool)
    (ending : Except ShellError α) (streams : Streams) :
    seen ((send channel bytes flushes >>= fun _ => lift ending) streams) =
      let sink := streams.sink channel
      let after := streams.withSink channel (sink.keeping bytes)
      ⟨unlessFault (sink.send bytes flushes) ending, after.output, after.error⟩ :=
  seen_settle_lift (send_eq channel bytes flushes streams) ending

theorem seen_flush_lift (channel : Channel) (ending : Except ShellError α) (streams : Streams) :
    seen ((flush channel >>= fun _ => lift ending) streams) =
      ⟨unlessFault (streams.sink channel).flush ending, streams.output, streams.error⟩ := by
  have sent := seen_send_lift channel [] true ending streams
  rw [← flush_eq_send] at sent
  simpa only [Sink.keeping_nil, Sink.send_nil_eq, Streams.withSink_sink, if_true] using sent

end StreamM
end MiniShell
