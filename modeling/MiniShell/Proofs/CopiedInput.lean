import MiniShell.Proofs.Truncation

namespace MiniShell
namespace Concatenation

/-!
# The copy of an input

Three things can stop the copying of an input: a fault of the input, an output
that is full, and a flush that fails.  Every line is written before the next one
is asked for, so it might seem that it depends on the lines which of the three
shows.  It does not.  What can be read line by line is known beforehand.  A full
output is noticed while this is written, the fault of the input only after it,
and the flush comes last.

So one case distinction over what can be read describes the copy, and the
variables, the rule and the files have no part in it.
-/

open StreamM

/-- What is seen of copying, on any sinks: all that can be read is sent, and then the fault of
the input or the flush decides. -/
theorem seen_copyInput_eq (input : Source) (output error : Sink) :
    seen (copyInput ⟨input, output, error⟩) =
      ⟨unlessFault (output.send input.readable false)
          (match input.fault with
            | some fault => .error (.io fault)
            | none => unlessFault output.flush (.ok 0)),
        output.keeping input.readable, error⟩ := by
  rcases input with ⟨pending, fault⟩
  have copied := seen_copyLines ⟨⟨pending, fault⟩, output, error⟩
  cases ran : copyLines ⟨⟨pending, fault⟩, output, error⟩ with
  | error failure left =>
      -- The flush is never reached.
      rw [ran] at copied
      injection copied with result sameOutput sameError
      rw [copyInput, bind_of_error ran, seen, sameOutput, sameError]
      congr 1
      cases sent : output.send (Source.readable ⟨pending, fault⟩) false with
      | error full =>
          rw [sent] at result
          exact congrArg Except.error (Except.error.inj result)
      | ok value =>
          rw [sent] at result
          cases fault with
          | none => cases result
          | some fault => exact congrArg Except.error (Except.error.inj result)
  | ok value left =>
      rw [ran] at copied
      injection copied with result sameOutput sameError
      rcases unlessFault_eq_ok_iff.mp result.symm with ⟨sent, noFault⟩
      cases fault with
      | some fault => cases noFault
      | none =>
          rw [copyInput, bind_of_ok ran]
          refine (seen_flush_lift .output (.ok (0 : Int)) left).trans ?_
          rw [Streams.sink, sameOutput, sameError, sent]
          rfl

/-- An output that holds nothing yet takes the bytes unless they exceed its limit. -/
theorem fits_iff_not_any (limit : Option Nat) (flushFails : Bool) (bytes : Bytes) :
    Sink.Fits ⟨[], limit, flushFails⟩ bytes ↔ ¬ limit.any (· < bytes.length) = true := by
  cases limit with
  | none => exact iff_of_true rfl Bool.false_ne_true
  | some capacity =>
      rw [Sink.fits_iff_of_capacity rfl rfl, Option.any_some, decide_eq_true_eq, Nat.not_lt]

/-- Copying, without arguments and whatever the rule, the files and the variables, from an
input that delivers some bytes and then ends or fails, to an output with any room that may
fail to be flushed.  What is copied is everything, or everything up to the last newline if the
input fails.  The output keeps as much of it as there is room for, and the error stream is
left alone.  The copy fails because of the output if there is not enough room, else because of
the input if that has failed, else because of the flush if that fails. -/
theorem copy_is_exact (rule : PathRule) (files : FileView) (scope : Variables)
    (delivered : Bytes) (fault : Option Fault) (limit : Option Nat) (flushFails : Bool)
    (error : Sink) :
    let copied :=
      match fault with
      | none => delivered
      | some _ => delivered.rdropWhile (· != Source.newline)
    seen ((command rule files).run [] scope
        ⟨⟨delivered, fault⟩, ⟨[], limit, flushFails⟩, error⟩) =
      ⟨if limit.any (· < copied.length) then .error (.io (.custom "sink full".toList))
        else
          match fault with
          | some fault => .error (.io fault)
          | none =>
              if flushFails then .error (.io (.custom "flush failed".toList)) else .ok 0,
        ⟨beginning limit copied, limit, flushFails⟩, error⟩ := by
  intro copied
  have readable : Source.readable ⟨delivered, fault⟩ = copied := by
    cases fault <;> rfl
  have known := seen_copyInput_eq ⟨delivered, fault⟩ ⟨[], limit, flushFails⟩ error
  rw [readable] at known
  refine known.trans ?_
  have kept : Sink.keeping ⟨[], limit, flushFails⟩ copied =
      ⟨beginning limit copied, limit, flushFails⟩ := by
    cases limit <;> rfl
  have room := fits_iff_not_any limit flushFails copied
  rw [kept, Sink.send]
  cases exceeds : limit.any (· < copied.length) with
  | true =>
      rw [exceeds] at room
      rw [if_neg (mt room.mp (not_not.mpr rfl)), if_pos rfl]
      rfl
  | false =>
      rw [exceeds] at room
      rw [if_pos (room.mpr Bool.false_ne_true), if_neg Bool.false_ne_true]
      cases fault with
      | some fault => rfl
      | none => cases flushFails <;> rfl

end Concatenation
end MiniShell
