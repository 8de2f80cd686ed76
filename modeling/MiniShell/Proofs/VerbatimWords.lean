import MiniShell.Proofs.Trimming

namespace MiniShell
namespace Words

/-!
# Words that are written as they are

Some words can be typed without thinking about quotes: the words of a line are then
the texts that were typed.  It is shown which words these are, both for a word that
ends its line and for a word in front of a space.

That the others are read differently is a matter of counting.  Whatever character is
read, at most one character becomes part of a word, if a backslash is counted as soon as
it is read.  So where a text comes out with the length that it was typed with, every
character of it has counted, and a character with a meaning does not count.
-/

/-! ## Counting -/

/-- How many characters an open backslash stands for, whatever follows it. -/
def Place.held : Place -> Nat
  | .betweenEscape | .bareEscape | .doubleEscape => 1
  | _ => 0

theorem Place.length_pending_le (place : Place) : place.pending.length ≤ place.held := by
  cases place <;> decide

namespace Reader

variable {reader : Reader}

/-- How many characters have counted. -/
def size (reader : Reader) : Nat :=
  reader.text.length + reader.place.held

theorem size_step_le (reader : Reader) (c : Char) : (reader.step c).size ≤ reader.size + 1 := by
  rcases reader with ⟨place, word, finished⟩
  cases place <;> simp only [step] <;> split_ifs <;>
    simp [size, text, Place.held, goto, push, close] <;> omega

theorem size_foldl_le (reader : Reader) (line : Text) :
    (line.foldl step reader).size ≤ reader.size + line.length := by
  induction line generalizing reader with
  | nil => exact Nat.le_refl _
  | cons c line ih =>
      have first := size_step_le reader c
      have later := ih (reader.step c)
      rw [List.foldl_cons, List.length_cons]
      omega

/-- A space outside of quotes does not count. -/
theorem size_step_space (outside : (reader.step ' ').place.isQuoted = false) :
    (reader.step ' ').size = reader.size := by
  rcases reader with ⟨place, word, finished⟩
  cases place <;> cases outside <;>
    simp [size, text, Place.held, step, isSeparator, push, close, Nat.add_assoc]

/-- Where neither quotes nor an escape are open, only a plain character and a backslash
count. -/
theorem step_of_size {c : Char} (outside : reader.place.opened = .bare)
    (counts : (reader.step c).size = reader.size + 1) :
    (IsPlain c ∧ (reader.step c).place = .bare) ∨
      (c = '\\' ∧ (reader.step c).place.opened = .bareEscape) := by
  rcases reader with ⟨place, word, finished⟩
  cases place <;> cases outside <;> simp only [step] at counts ⊢ <;> split_ifs at counts ⊢ <;>
    simp_all [size, text, Place.held, Place.opened, goto, push, close, IsPlain]

/-- A character behind a backslash does not count, because the backslash has. -/
theorem size_step_escaped {c : Char} (escaping : reader.place.opened = .bareEscape) :
    (reader.step c).size ≤ reader.size := by
  rcases reader with ⟨place, word, finished⟩
  cases place <;> cases escaping <;> simp only [step] <;> split_ifs <;>
    simp [size, text, Place.held, goto, push] <;> omega

/-- Where a whole text counts, it is plain, but for a backslash at its end. -/
theorem plain_of_size_foldl {text : Text} (outside : reader.place.opened = .bare)
    (counts : (text.foldl step reader).size = reader.size + text.length) :
    (forall c, c ∈ text -> IsPlain c) ∨
      exists front, text = front ++ ['\\'] ∧ forall c, c ∈ front -> IsPlain c := by
  induction text generalizing reader with
  | nil => exact .inl fun c member => absurd member List.not_mem_nil
  | cons c text ih =>
      rw [List.foldl_cons, List.length_cons] at counts
      have first := size_step_le reader c
      have later := size_foldl_le (reader.step c) text
      have firstCounts : (reader.step c).size = reader.size + 1 := by omega
      rcases step_of_size outside firstCounts with ⟨plain, place⟩ | ⟨backslash, escaping⟩
      · have inside : (reader.step c).place.opened = .bare := congrArg Place.opened place
        have laterCounts : (text.foldl step (reader.step c)).size =
            (reader.step c).size + text.length := by omega
        rcases ih inside laterCounts with allPlain | ⟨front, same, frontPlain⟩
        · exact .inl (List.forall_mem_cons.mpr ⟨plain, allPlain⟩)
        · refine .inr ⟨c :: front, ?_, List.forall_mem_cons.mpr ⟨plain, frontPlain⟩⟩
          rw [same, List.cons_append]
      · -- If anything followed the backslash, it would not count.
        cases text with
        | nil =>
            rw [backslash]
            exact .inr ⟨[], rfl, fun d member => absurd member List.not_mem_nil⟩
        | cons d text =>
            rw [List.foldl_cons, List.length_cons] at counts
            have escaped := size_step_escaped (c := d) escaping
            have rest := size_foldl_le ((reader.step c).step d) text
            omega

end Reader

/-! ## Words without quotes and escapes -/

/-- A word that can be typed as it is. -/
structure IsBareWord (word : Text) : Prop where
  nonempty : word ≠ []
  noComment : word.head? ≠ some '#'
  plain : forall c, c ∈ word -> IsPlain c

theorem isBareWord_iff {word : Text} :
    IsBareWord word ↔
      word ≠ [] ∧ word.head? ≠ some '#' ∧ word.all (IsPlain ·) = true := by
  simp only [List.all_eq_true, decide_eq_true_eq]
  exact ⟨fun bare => ⟨bare.nonempty, bare.noComment, bare.plain⟩,
    fun bare => ⟨bare.1, bare.2.1, bare.2.2⟩⟩

instance decidableIsBareWord : DecidablePred IsBareWord :=
  fun _ => decidable_of_iff _ isBareWord_iff.symm

theorem IsBareWord.spelling {word : Text} (bare : IsBareWord word) : Spelling word word := by
  rcases isBareWord_iff.mp bare with ⟨nonempty, noComment, plain⟩
  exact spelling_self nonempty noComment plain

/-- A word with a backslash at its end and no other character with a meaning. -/
def EndsInBackslash (word : Text) : Prop :=
  exists front, word = front ++ ['\\'] ∧ (front = [] ∨ IsBareWord front)

section Between

variable {finished : List Text} {word : Text}

/-- A reader that has finished some words. -/
def Reader.after (finished : List Text) : Reader where
  finished := finished

theorem Reader.size_after (finished : List Text) :
    (Reader.after finished).size = finished.reverse.flatten.length := by
  simp only [size, text, after, Place.held, List.reverse_nil, List.append_nil, Nat.add_zero]

/-- If a text is a word that is read in full, it is bare, but for a backslash at its end. -/
theorem bare_or_endsInBackslash (nonempty : word ≠ [])
    (counts : (word.foldl Reader.step (.after finished)).size =
      (Reader.after finished).size + word.length) :
    IsBareWord word ∨ EndsInBackslash word := by
  have noComment : word.head? ≠ some '#' := by
    intro hash
    rcases List.head?_eq_some_iff.mp hash with ⟨rest, same⟩
    have later := Reader.size_foldl_le ((Reader.after finished).step '#') rest
    have ignored : ((Reader.after finished).step '#').size = (Reader.after finished).size := rfl
    rw [same, List.foldl_cons, List.length_cons] at counts
    omega
  rcases Reader.plain_of_size_foldl rfl counts with plain | ⟨front, same, plain⟩
  · exact .inl ⟨nonempty, noComment, plain⟩
  · refine .inr ⟨front, same, ?_⟩
    by_cases empty : front = []
    · exact .inl empty
    · right
      refine ⟨empty, ?_, plain⟩
      rw [same, List.head?_append_of_ne_nil _ empty] at noComment
      exact noComment

/-- Reading a text that ends in a backslash leaves an escape open. -/
theorem exists_foldl_backslash {front : Text} (bare : front = [] ∨ IsBareWord front) :
    exists place : Place, place.opened = .bareEscape ∧
      (front ++ ['\\']).foldl Reader.step (.after finished) =
        ⟨place, front.reverse, finished⟩ := by
  rcases bare with empty | bare
  · rw [empty]
    exact ⟨.betweenEscape, rfl, rfl⟩
  · refine ⟨.bareEscape, rfl, ?_⟩
    have read : front.foldl Reader.step (.after finished) = ⟨.bare, front.reverse, finished⟩ :=
      foldl_spelling bare.spelling
    rw [List.foldl_append, read]
    rfl

theorem finish_of_escaping {place : Place} (escaping : place.opened = .bareEscape) (front : Text) :
    (⟨place, front.reverse, finished⟩ : Reader).finish =
      some (finished.reverse ++ [front ++ ['\\']]) := by
  cases place <;> cases escaping <;>
    simp only [Reader.finish, Reader.push, Reader.close, List.reverse_cons, List.reverse_reverse]

theorem finish_step_space_of_escaping {place : Place} (escaping : place.opened = .bareEscape)
    (front : Text) :
    (Reader.step ⟨place, front.reverse, finished⟩ ' ').finish =
      some (finished.reverse ++ [front ++ [' ']]) := by
  cases place <;> cases escaping <;>
    simp [Reader.step, Reader.finish, Reader.push, Reader.close]

/-- A text counts in full if it is the last of the words, and no character behind it has
counted. -/
theorem size_foldl_of_finish {reader : Reader} (formed : reader.WellFormed)
    (words : reader.finish = some (finished.reverse ++ [word]))
    (least : reader.size ≤ (word.foldl Reader.step (.after finished)).size) :
    (word.foldl Reader.step (.after finished)).size =
      (Reader.after finished).size + word.length := by
  have most := Reader.size_foldl_le (.after finished) word
  have lengths := congrArg List.length (Reader.flatten_of_finish formed words)
  have held := reader.place.length_pending_le
  rw [List.flatten_append, List.flatten_singleton, List.length_append, List.length_append,
    ← Reader.size_after] at lengths
  rw [Reader.size] at least
  omega

theorem finish_after_ne (finished : List Text) (word : Text) :
    (Reader.after finished).finish ≠ some (finished.reverse ++ [word]) := by
  intro same
  have more : finished.reverse = finished.reverse ++ [word] := Option.some.inj same
  exact List.cons_ne_nil _ _ (List.self_eq_append_right.mp more)

/-- A text at the end of a line is read as the word that it is exactly if it is bare, but for a
backslash at its end. -/
theorem finish_verbatim_iff :
    (word.foldl Reader.step (.after finished)).finish = some (finished.reverse ++ [word]) ↔
      IsBareWord word ∨ EndsInBackslash word := by
  constructor
  · intro words
    have formed : (word.foldl Reader.step (.after finished)).WellFormed :=
      Reader.wellFormed_foldl (fun _ => rfl) word
    apply bare_or_endsInBackslash
    · intro empty
      rw [empty] at words
      exact finish_after_ne finished [] words
    · exact size_foldl_of_finish formed words (Nat.le_refl _)
  · rintro (bare | ⟨front, same, bare⟩)
    · have renders : Renders [word] ([] ++ word) := .last .nil bare.spelling
      exact finish_foldl_of_renders renders
    · rcases exists_foldl_backslash bare with ⟨place, escaping, read⟩
      rw [same, read]
      exact finish_of_escaping escaping front

/-- In front of a space the backslash at the end is not allowed, because it makes the space a
part of the word. -/
theorem finish_verbatim_space_iff :
    ((word ++ [' ']).foldl Reader.step (.after finished)).finish =
        some (finished.reverse ++ [word]) ↔
      IsBareWord word := by
  have spaced : (word ++ [' ']).foldl Reader.step (.after finished) =
      (word.foldl Reader.step (.after finished)).step ' ' := List.foldl_concat _ _ _ _
  constructor
  · intro words
    have formed : ((word ++ [' ']).foldl Reader.step (.after finished)).WellFormed :=
      Reader.wellFormed_foldl (fun _ => rfl) (word ++ [' '])
    rw [spaced] at words formed
    have closed := Reader.isSome_finish ((word.foldl Reader.step (.after finished)).step ' ')
    rw [words, Option.isSome_some] at closed
    have outside := (Bool.not_eq_true' _).mp closed.symm
    have uncounted := Reader.size_step_space outside
    have counts := size_foldl_of_finish formed words uncounted.le
    have nonempty : word ≠ [] := by
      intro empty
      rw [empty] at words
      exact finish_after_ne finished [] words
    rcases bare_or_endsInBackslash nonempty counts with bare | ⟨front, same, bare⟩
    · exact bare
    · rcases exists_foldl_backslash bare with ⟨place, escaping, read⟩
      rw [same, read, finish_step_space_of_escaping escaping, Option.some.injEq,
        List.append_right_inj, List.singleton_inj, List.append_right_inj] at words
      cases words
  · intro bare
    have renders : Renders [word] ([] ++ word ++ ' ' :: []) :=
      .cons .nil bare.spelling rfl (.blank .nil)
    exact finish_foldl_of_renders renders

end Between

end Words
end MiniShell
