import MiniShell.Command.Concatenation
import MiniShell.Proofs.Sending
import Mathlib.Data.List.DropRight

namespace MiniShell

/-!
# Copying the input

The input is copied line by line, and each line is written before the next one is
asked for.  On the sinks this can not be told from writing at once whatever can
be read: all that is there, or, if the input ends in a fault, all up to the last
newline.  An output that takes only a part of it stops the copying earlier, and
then less has been read, but the same bytes have been kept.
-/

/-! ## What can be read line by line -/

namespace Source

/-- What can be read line by line: everything, or everything up to the last newline if the
source ends in a fault. -/
def readable (source : Source) : Bytes :=
  match source.fault with
  | none => source.pending
  | some _ => source.pending.rdropWhile (· != newline)

/-- How reading line by line ends. -/
def verdict (source : Source) : Except ShellError Unit :=
  match source.fault with
  | none => .ok ()
  | some fault => .error (.io fault)

theorem splitLine_cases (bytes : Bytes) :
    (splitLine bytes).1.getLast? = some newline ∨
      splitLine bytes = (bytes, []) ∧ newline ∉ bytes := by
  induction bytes with
  | nil => exact .inr ⟨rfl, List.not_mem_nil⟩
  | cons byte rest ih =>
      simp only [splitLine]
      by_cases same : byte = newline
      · subst same
        exact .inl rfl
      · simp only [if_neg same]
        rcases ih with ends | ⟨whole, absent⟩
        · left
          rw [List.getLast?_cons, ends]
          rfl
        · right
          rw [whole]
          exact ⟨rfl, List.not_mem_cons_of_ne_of_not_mem (Ne.symm same) absent⟩

theorem rdropWhile_of_not_mem {bytes : Bytes} (absent : newline ∉ bytes) :
    bytes.rdropWhile (· != newline) = [] := by
  apply List.rdropWhile_eq_nil_iff.mpr
  intro byte member
  exact bne_iff_ne.mpr fun same => absent (same ▸ member)

theorem rdropWhile_append_of_ends {line : Bytes} (ends : line.getLast? = some newline)
    (rest : Bytes) :
    (line ++ rest).rdropWhile (· != newline) = line ++ rest.rdropWhile (· != newline) := by
  induction rest using List.reverseRecOn with
  | nil =>
      rcases List.getLast?_eq_some_iff.mp ends with ⟨front, same⟩
      rw [List.append_nil, List.rdropWhile_nil, List.append_nil, same,
        List.rdropWhile_concat_neg _ _ _ (by decide)]
  | append_singleton rest byte ih =>
      rw [← List.append_assoc]
      by_cases same : (byte != newline) = true
      · rw [List.rdropWhile_concat_pos (· != newline) _ _ same,
          List.rdropWhile_concat_pos (· != newline) _ _ same, ih]
      · rw [List.rdropWhile_concat_neg (· != newline) _ _ same,
          List.rdropWhile_concat_neg (· != newline) _ _ same, List.append_assoc]

/-- Reading a line takes it off what can be read. -/
theorem readable_of_readLine_ok {source after : Source} {line : Bytes}
    (read : source.readLine = (.ok line, after)) :
    source.readable = line ++ after.readable ∧ source.verdict = after.verdict := by
  have whole := eq_append_of_readLine_ok read
  have sameFault : source.fault = after.fault := congrArg (fun result => result.2.fault) read
  constructor
  · unfold readable
    rw [← sameFault, whole]
    cases fault : source.fault with
    | none => rfl
    | some fault' =>
        have ends : line.getLast? = some newline := by
          simp only [readLine, fault] at read
          split at read
          · next ends =>
              rw [← Except.ok.inj (congrArg Prod.fst read)]
              exact ends
          · cases read
        exact rdropWhile_append_of_ends ends _
  · rw [verdict, verdict, sameFault]

/-- At the end there is nothing to read. -/
theorem readable_of_readLine_nil {source after : Source}
    (read : source.readLine = (.ok [], after)) :
    source.readable = [] ∧ source.verdict = .ok () := by
  have sameLine := congrArg Prod.fst read
  simp only [readLine] at sameLine
  cases fault : source.fault with
  | none =>
      simp only [fault] at sameLine
      have noLine : (splitLine source.pending).1 = [] := Except.ok.inj sameLine
      rw [readable, verdict, fault]
      refine ⟨?_, rfl⟩
      rcases splitLine_cases source.pending with ends | ⟨whole, absent⟩
      · rw [noLine] at ends
        cases ends
      · rw [whole] at noLine
        exact noLine
  | some fault' =>
      simp only [fault] at sameLine
      split at sameLine
      · next ends =>
          rw [Except.ok.inj sameLine] at ends
          cases ends
      · cases sameLine

/-- After the end nothing is left, not even a fault. -/
theorem eq_of_readLine_nil {source after : Source} (read : source.readLine = (.ok [], after)) :
    after = {} := by
  rcases readable_of_readLine_nil read with ⟨nothing, verdict⟩
  rcases source with ⟨pending, fault⟩
  cases fault with
  | none =>
      change pending = [] at nothing
      subst nothing
      exact (congrArg Prod.snd read).symm
  | some fault => cases verdict

/-- A fault is reported where there is no whole line left. -/
theorem readable_of_readLine_error {source after : Source} {fault : Fault}
    (read : source.readLine = (.error fault, after)) :
    source.readable = [] ∧ source.verdict = .error (.io fault) := by
  have failed := congrArg Prod.fst read
  simp only [readLine] at failed
  cases held : source.fault with
  | none =>
      simp only [held] at failed
      cases failed
  | some other =>
      simp only [held] at failed
      split at failed
      · cases failed
      · next unfinished =>
          rw [readable, verdict, held, Except.error.inj failed]
          refine ⟨?_, rfl⟩
          rcases splitLine_cases source.pending with ends | ⟨_, absent⟩
          · exact absurd ends unfinished
          · exact rdropWhile_of_not_mem absent

end Source

/-! ## Copying -/

namespace Concatenation

open StreamM

/-- Copying line by line can only be told from writing at once by what it leaves of the input. -/
theorem seen_copyLines (streams : Streams) :
    seen (copyLines streams) =
      ⟨unlessFault (streams.output.send streams.input.readable false) streams.input.verdict,
        streams.output.keeping streams.input.readable, streams.error⟩ := by
  -- A line that arrives is taken off what can be read.  After one that does not arrive the
  -- output is full, so it makes no difference that the rest is not even tried.
  induction streams using copyLines.induct with
  | case1 streams fault input read =>
      rcases Source.readable_of_readLine_error read with ⟨nothing, verdict⟩
      rw [copyLines, read, nothing, verdict, Sink.send_nil, Sink.keeping_nil]
      rfl
  | case2 streams input read =>
      rcases Source.readable_of_readLine_nil read with ⟨nothing, verdict⟩
      rw [copyLines, read, nothing, verdict, Sink.send_nil, Sink.keeping_nil]
      rfl
  | case3 streams byte line input read output written ih =>
      rcases Source.readable_of_readLine_ok read with ⟨readable, verdict⟩
      have sent : streams.output.send (byte :: line) false = .ok () := congrArg Prod.fst written
      have kept : streams.output.keeping (byte :: line) = output := congrArg Prod.snd written
      rw [copyLines, read, readable, verdict, Sink.send_append, sent, ← Sink.keeping_keeping, kept]
      simp only [written]
      exact ih
  | case4 streams byte line input read fault output written =>
      rcases Source.readable_of_readLine_ok read with ⟨readable, verdict⟩
      have sent : streams.output.send (byte :: line) false = .error fault :=
        congrArg Prod.fst written
      have kept : streams.output.keeping (byte :: line) = output := congrArg Prod.snd written
      have full := Sink.not_fits_of_send_eq_error sent
      rw [copyLines, read, readable, verdict, Sink.send_append, sent,
        Sink.keeping_append_of_not_fits full, kept]
      simp only [written]
      rfl

/-- Copying that succeeds leaves nothing of the input. -/
theorem input_of_copyLines_eq_ok {streams after : Streams}
    (copied : copyLines streams = .ok () after) : after.input = {} := by
  induction streams using copyLines.induct with
  | case1 streams fault input read =>
      rw [copyLines, read] at copied
      cases copied
  | case2 streams input read =>
      rw [copyLines, read] at copied
      cases copied
      exact Source.eq_of_readLine_nil read
  | case3 streams byte line input read output written ih =>
      rw [copyLines, read] at copied
      simp only [written] at copied
      exact ih copied
  | case4 streams byte line input read fault output written =>
      rw [copyLines, read] at copied
      simp only [written] at copied
      cases copied

/-- An input without a fault is copied as a whole to an output that never fails. -/
theorem copyLines_eq {output : Sink} (unfailing : output.Unfailing) (rest : Bytes)
    (error : Sink) :
    copyLines ⟨⟨rest, none⟩, output, error⟩ = .ok () ⟨{}, output.holding rest, error⟩ := by
  have known := seen_copyLines ⟨⟨rest, none⟩, output, error⟩
  rw [unfailing.send_eq, unfailing.keeping_eq] at known
  cases copied : copyLines ⟨⟨rest, none⟩, output, error⟩ with
  | ok value after =>
      rw [copied] at known
      have drained := input_of_copyLines_eq_ok copied
      rcases after with ⟨input, output', error'⟩
      injection known with _ sameOutput sameError
      change input = {} at drained
      change output' = output.holding rest at sameOutput
      change error' = error at sameError
      rw [drained, sameOutput, sameError]
  | error failure after =>
      rw [copied] at known
      cases known

end Concatenation
end MiniShell
