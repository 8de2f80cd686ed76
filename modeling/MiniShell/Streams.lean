import MiniShell.ShellError

namespace MiniShell

/-!
# The streams of a command

A command reads from one source and writes to two sinks.  A sink may be able
to keep only a bounded number of bytes, and its flush may fail, so that every
way in which writing can go wrong is visible in a value.  A write that does
not fit stores what still fits and then fails.

Commands are computations over the three streams that may fail.  A failure
keeps the streams as the failing step has left them.
-/

structure Sink where
  stored : Bytes := []
  /-- How many bytes the sink can keep in all, if there is a bound. -/
  capacity : Option Nat := none
  flushFails : Bool := false
  deriving DecidableEq, Repr

namespace Sink

def full : Fault := .custom "sink full".toList

def unflushed : Fault := .custom "flush failed".toList

/-- The part of the bytes for which there is still room. -/
def fitting (sink : Sink) (bytes : Bytes) : Bytes :=
  match sink.capacity with
  | none => bytes
  | some capacity => bytes.take (capacity - sink.stored.length)

/-- Store as many of the bytes as fit, and fail unless all did. -/
def write (bytes : Bytes) (sink : Sink) : Except Fault Unit × Sink :=
  let stored := sink.fitting bytes
  (if stored.length = bytes.length then .ok () else .error full,
    { sink with stored := sink.stored ++ stored })

/-- Ask that nothing be held back.  No byte is held back here, so all that a
flush can do is fail. -/
def flush (sink : Sink) : Except Fault Unit :=
  if sink.flushFails then .error unflushed else .ok ()

end Sink

/-- A place to read from: bytes, and then an end or a fault. -/
structure Source where
  pending : Bytes := []
  /-- What is reported after the last byte in place of the end. -/
  fault : Option Fault := none
  deriving DecidableEq, Repr

namespace Source

def newline : UInt8 := 10

/-- Cut after the first newline.  Without a newline the whole sequence is the
first part. -/
def splitLine : Bytes -> Bytes × Bytes
  | [] => ([], [])
  | byte :: rest =>
      if byte = newline then ([byte], rest)
      else (byte :: (splitLine rest).1, (splitLine rest).2)

theorem splitLine_append (bytes : Bytes) :
    (splitLine bytes).1 ++ (splitLine bytes).2 = bytes := by
  induction bytes with
  | nil => rfl
  | cons byte rest ih =>
      simp only [splitLine]
      split
      · rfl
      · simp [ih]

/-- All lines of a sequence, each with its newline. -/
def lines : Bytes -> List Bytes
  | [] => []
  | byte :: rest =>
      if byte = newline then [byte] :: lines rest
      else
        match lines rest with
        | [] => [[byte]]
        | line :: later => (byte :: line) :: later

/-- No byte is lost between the lines. -/
theorem flatten_lines (bytes : Bytes) : (lines bytes).flatten = bytes := by
  induction bytes with
  | nil => rfl
  | cons byte rest ih =>
      simp only [lines]
      split
      · simp [ih]
      · split <;> next same => rw [same] at ih; simpa using ih

/-- Read one line with its newline.  The last line may lack a newline, and an
empty result means that the source has ended.  A source that ends in a fault
reports it in the place of an unfinished last line, which is lost. -/
def readLine (source : Source) : Except Fault Bytes × Source :=
  let cut := splitLine source.pending
  (match source.fault with
    | none => .ok cut.1
    | some fault => if cut.1.getLast? = some newline then .ok cut.1 else .error fault,
    { source with pending := cut.2 })

theorem eq_append_of_readLine_ok {source after : Source} {line : Bytes}
    (read : source.readLine = (.ok line, after)) :
    source.pending = line ++ after.pending := by
  have sameRest : (splitLine source.pending).2 = after.pending :=
    congrArg (fun result => result.2.pending) read
  have sameLine : (splitLine source.pending).1 = line := by
    have first := congrArg Prod.fst read
    simp only [readLine] at first
    split at first
    · exact Except.ok.inj first
    · split at first
      · exact Except.ok.inj first
      · cases first
  rw [← sameLine, ← sameRest, splitLine_append]

theorem length_lt_of_readLine_ok {source after : Source} {byte : UInt8} {line : Bytes}
    (read : source.readLine = (.ok (byte :: line), after)) :
    after.pending.length < source.pending.length := by
  rw [eq_append_of_readLine_ok read, List.length_append, List.length_cons]
  omega

end Source

@[ext]
structure Streams where
  input : Source := {}
  output : Sink := {}
  error : Sink := {}
  deriving DecidableEq, Repr

/-- Where a command may write to. -/
inductive Channel where
  | output
  | error
  deriving DecidableEq, Repr

namespace Streams

def sink (streams : Streams) : Channel -> Sink
  | .output => streams.output
  | .error => streams.error

def withSink (streams : Streams) (channel : Channel) (sink : Sink) : Streams :=
  match channel with
  | .output => { streams with output := sink }
  | .error => { streams with error := sink }

@[simp] theorem sink_withSink (streams : Streams) (channel : Channel) (sink : Sink) :
    (streams.withSink channel sink).sink channel = sink := by
  cases channel <;> rfl

@[simp] theorem withSink_sink (streams : Streams) (channel : Channel) :
    streams.withSink channel (streams.sink channel) = streams := by
  cases channel <;> rfl

@[simp] theorem withSink_withSink (streams : Streams) (channel : Channel) (first second : Sink) :
    (streams.withSink channel first).withSink channel second = streams.withSink channel second := by
  cases channel <;> rfl

@[simp] theorem input_withSink (streams : Streams) (channel : Channel) (sink : Sink) :
    (streams.withSink channel sink).input = streams.input := by
  cases channel <;> rfl

end Streams

/-- Computations over the streams that may fail. -/
abbrev StreamM := EStateM ShellError Streams

namespace StreamM

/-- Go on with a value, or fail with a fault, in the given streams. -/
def settle (streams : Streams) : Except Fault α -> EStateM.Result ShellError Streams α
  | .ok value => .ok value streams
  | .error fault => .error (.io fault) streams

def write (channel : Channel) (bytes : Bytes) : StreamM Unit := fun streams =>
  let written := (streams.sink channel).write bytes
  settle (streams.withSink channel written.2) written.1

def flush (channel : Channel) : StreamM Unit := fun streams =>
  settle streams (streams.sink channel).flush

abbrev writeOutput (bytes : Bytes) : StreamM Unit := write .output bytes

abbrev writeError (bytes : Bytes) : StreamM Unit := write .error bytes

abbrev flushOutput : StreamM Unit := flush .output

abbrev flushError : StreamM Unit := flush .error

/-- Fail with the error unless there is a value. -/
def lift : Except ShellError α -> StreamM α
  | .ok value => fun streams => .ok value streams
  | .error error => fun streams => .error error streams

end StreamM
end MiniShell
