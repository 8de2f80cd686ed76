import MiniShell.Proofs.Rendering
import MiniShell.Text.Blank
import Mathlib.Data.List.DropRight
import Mathlib.Tactic.SplitIfs

namespace MiniShell

/-!
# Trimming a line

Trimming takes away twenty-five kinds of blank characters, of which only three
separate words.  Any other blank character is a part of the word at which it stands,
and so is a separator behind a backslash.  Whether a line has the same words without
the blank characters around it can be told from these characters and from the place
where the trimmed line leaves a reader.

What a reader makes of a piece of a line depends on the place where it stands, and not
on the words that it has read.  It is therefore enough to compare places.  Where
trimming takes more than separators, the characters that have become parts of words
show the difference.
-/

/-! ## What is trimmed -/

namespace Blank

/-- The blank characters in front of a line. -/
def leading (line : Text) : Text :=
  line.takeWhile isBlank

/-- The blank characters that trimming takes away at the end of a line.  A line of blank
characters only is trimmed from the front. -/
def trailing (line : Text) : Text :=
  (line.dropWhile isBlank).rtakeWhile isBlank

theorem leading_append_trim_append_trailing (line : Text) :
    leading line ++ (trim line ++ trailing line) = line := by
  have trimmed : trim line = (line.dropWhile isBlank).rdropWhile isBlank := rfl
  rw [trimmed, leading, trailing, List.rdropWhile_append_rtakeWhile,
    List.takeWhile_append_dropWhile]

theorem isBlank_of_mem_leading {line : Text} {c : Char} (member : c ∈ leading line) :
    isBlank c = true :=
  List.mem_takeWhile_imp member

theorem isBlank_of_mem_trailing {line : Text} {c : Char} (member : c ∈ trailing line) :
    isBlank c = true :=
  List.mem_rtakeWhile_imp member

theorem ne_of_isBlank {c d : Char} (blank : isBlank c = true) (other : isBlank d = false) :
    c ≠ d := by
  intro same
  rw [same, other] at blank
  cases blank

/-- What is left by trimming does not begin with a blank character. -/
theorem isBlank_of_trim_eq_cons {line rest : Text} {c : Char} (trimmed : trim line = c :: rest) :
    isBlank c = false := by
  have front : trim line <+: line.dropWhile isBlank := List.rdropWhile_prefix _ _
  rw [trimmed] at front
  rcases front with ⟨later, same⟩
  have first := List.head?_dropWhile_not isBlank line
  rw [← same] at first
  exact first

/-- A blank character at the end does not outlive trimming. -/
theorem trim_concat {c : Char} (blank : isBlank c = true) (text : Text) :
    trim (text ++ [c]) = trim text := by
  have trimmed : forall text : Text, trim text = (text.dropWhile isBlank).rdropWhile isBlank :=
    fun _ => rfl
  rw [trimmed, trimmed, List.dropWhile_append]
  cases left : text.dropWhile isBlank with
  | nil => simp [blank]
  | cons first rest =>
      rw [List.isEmpty_cons, if_neg Bool.false_ne_true]
      exact List.rdropWhile_concat_pos isBlank _ _ blank

end Blank

namespace Words

open Blank

/-! ## Reading relative to a place -/

namespace Place

/-- Is no word open? -/
def isOutside : Place -> Bool
  | .between | .betweenEscape | .comment => true
  | _ => false

/-- Are there quotes to be closed? -/
def isQuoted : Place -> Bool
  | .single | .double | .doubleEscape => true
  | _ => false

/-- What the end of the line makes part of a word. -/
def pending : Place -> Text
  | .betweenEscape | .bareEscape => ['\\']
  | _ => []

/-- The place inside of a word that corresponds to one outside. -/
def opened : Place -> Place
  | .between => .bare
  | .betweenEscape => .bareEscape
  | place => place

theorem isQuoted_opened (place : Place) : place.opened.isQuoted = place.isQuoted := by
  cases place <;> rfl

theorem pending_of_opened {place : Place} (inside : place.opened = .bare) :
    place.pending = [] := by
  cases place <;> cases inside <;> rfl

end Place

namespace Reader

variable {reader : Reader} {line : Text} {c : Char}

/-- A reader that stands at the place and has read nothing. -/
def fresh (place : Place) : Reader where
  place := place

/-- The characters that have become parts of words. -/
def text (reader : Reader) : Text :=
  reader.finished.reverse.flatten ++ reader.word.reverse

theorem text_push (reader : Reader) (c : Char) (place : Place) :
    (reader.push c place).text = reader.text ++ [c] := by
  simp [text, push]

/-- Outside of words no word is open. -/
def WellFormed (reader : Reader) : Prop :=
  reader.place.isOutside = true -> reader.word = []

theorem wellFormed_step (formed : reader.WellFormed) (c : Char) : (reader.step c).WellFormed := by
  rcases reader with ⟨place, word, finished⟩
  cases place <;> simp only [step] <;> split_ifs <;>
    simp_all [WellFormed, Place.isOutside, push, close, goto]

theorem wellFormed_start : ({} : Reader).WellFormed :=
  fun _ => rfl

theorem wellFormed_foldl (formed : reader.WellFormed) (line : Text) :
    (line.foldl step reader).WellFormed := by
  induction line generalizing reader with
  | nil => exact formed
  | cons c line ih => exact ih (wellFormed_step formed c)

theorem eq_of_wellFormed (formed : reader.WellFormed) (outside : reader.place.isOutside = true) :
    reader = ⟨reader.place, [], reader.finished⟩ := by
  rcases reader with ⟨place, word, finished⟩
  rw [show word = [] from formed outside]

theorem isSome_finish (reader : Reader) : reader.finish.isSome = !reader.place.isQuoted := by
  rcases reader with ⟨place, word, finished⟩
  cases place <;> rfl

/-- The words of a line are made of the characters that have become parts of them. -/
theorem flatten_of_finish {words : List Text} (formed : reader.WellFormed)
    (finished : reader.finish = some words) :
    words.flatten = reader.text ++ reader.place.pending := by
  rcases reader with ⟨place, word, finished'⟩
  cases place <;> simp only [finish] at finished <;> cases finished <;>
    simp_all [WellFormed, Place.isOutside, text, Place.pending, push, close]

theorem step_relative (reader : Reader) (c : Char) :
    (reader.step c).place = ((fresh reader.place).step c).place ∧
      (reader.step c).text = reader.text ++ ((fresh reader.place).step c).text := by
  rcases reader with ⟨place, word, finished⟩
  cases place <;> simp only [step, fresh] <;> split_ifs <;>
    simp [text, push, close, goto]

/-- What a piece of a line does depends on the place only. -/
theorem foldl_relative (reader : Reader) (line : Text) :
    (line.foldl step reader).place = (line.foldl step (fresh reader.place)).place ∧
      (line.foldl step reader).text =
        reader.text ++ (line.foldl step (fresh reader.place)).text := by
  induction line generalizing reader with
  | nil => exact ⟨rfl, (List.append_nil _).symm⟩
  | cons c line ih =>
      rcases step_relative reader c with ⟨samePlace, text⟩
      rcases ih (reader.step c) with ⟨place, read⟩
      rcases ih ((fresh reader.place).step c) with ⟨placeFresh, readFresh⟩
      rw [← samePlace] at placeFresh readFresh
      rw [List.foldl_cons, List.foldl_cons]
      constructor
      · rw [place, placeFresh]
      · rw [read, text, readFresh, List.append_assoc]

end Reader

/-! ## Blank characters where they stand -/

def OnlySeparators (text : Text) : Prop :=
  forall c, c ∈ text -> isSeparator c = true

/-- The characters that do not separate words. -/
def literals (text : Text) : Text :=
  text.filter fun c => !isSeparator c

theorem literals_eq_nil_iff {text : Text} : literals text = [] ↔ OnlySeparators text := by
  simp [literals, OnlySeparators]

theorem isBlank_of_isSeparator {c : Char} (separates : isSeparator c = true) :
    isBlank c = true := by
  simp only [isSeparator, Bool.or_eq_true, beq_iff_eq] at separates
  rcases separates with (same | same) | same <;> subst same <;> decide

theorem isPlain_of_isBlank {c : Char} (blank : isBlank c = true)
    (literal : isSeparator c = false) : IsPlain c :=
  ⟨literal, ne_of_isBlank blank rfl, ne_of_isBlank blank rfl, ne_of_isBlank blank rfl⟩

theorem gap_of_onlySeparators {text : Text} (only : OnlySeparators text) : Gap text := by
  induction text with
  | nil => exact .nil
  | cons c text ih =>
      exact .separator (only c List.mem_cons_self)
        (ih fun d member => only d (List.mem_cons_of_mem c member))

/-- The first character of a piece that is read outside of words opens a word, unless it is a
hash sign or a separator.  It is then read as if the word had been open. -/
theorem foldl_opened {text : Text} (oneLine : '\n' ∉ text)
    (begins : forall c, text.head? = some c -> isSeparator c = false ∧ c ≠ '#') :
    (text.foldl Reader.step (.fresh .bare)).text = (text.foldl Reader.step {}).text ∧
      (text.foldl Reader.step (.fresh .bare)).place.opened =
        (text.foldl Reader.step {}).place.opened := by
  cases text with
  | nil => exact ⟨rfl, rfl⟩
  | cons c rest =>
      rcases begins c rfl with ⟨separates, notHash⟩
      by_cases escapes : c = '\\'
      · subst escapes
        cases rest with
        | nil => exact ⟨rfl, rfl⟩
        | cons d rest =>
            have notNewline : d ≠ '\n' := fun same =>
              oneLine (same ▸ List.mem_cons_of_mem _ List.mem_cons_self)
            have bare : Reader.step (.fresh .bare) '\\' = .fresh .bareEscape := rfl
            have between : Reader.step {} '\\' = .fresh .betweenEscape := rfl
            have step : Reader.step (.fresh .bareEscape) d =
                Reader.step (.fresh .betweenEscape) d := by
              simp only [Reader.step, Reader.fresh, if_neg notNewline, Reader.push]
            rw [List.foldl_cons, List.foldl_cons, List.foldl_cons, List.foldl_cons, bare, between,
              step]
            exact ⟨rfl, rfl⟩
      · have step : Reader.step (.fresh .bare) c = Reader.step {} c := by
          simp only [Reader.step, Reader.fresh, separates, Bool.false_eq_true, if_false,
            if_neg escapes, if_neg notHash, Reader.goto, Reader.push]
        rw [List.foldl_cons, List.foldl_cons, step]
        exact ⟨rfl, rfl⟩

section Blanks

variable {reader : Reader} {blanks : Text}

theorem step_blank {c : Char} (blank : isBlank c = true) (outside : reader.place.opened = .bare) :
    (reader.step c).place.opened = .bare ∧ (reader.step c).text = reader.text ++ literals [c] := by
  rcases reader with ⟨place, word, finished⟩
  cases separates : isSeparator c with
  | true => cases place <;> cases outside <;>
      simp [Reader.step, separates, literals, Reader.close, Place.opened, Reader.text]
  | false =>
      rcases isPlain_of_isBlank blank separates with ⟨-, notSingle, notDouble, notBackslash⟩
      have notHash : c ≠ '#' := ne_of_isBlank blank rfl
      cases place <;> cases outside <;>
        simp [Reader.step, separates, notSingle, notDouble, notBackslash, notHash, literals,
          Reader.push, Place.opened, Reader.text]

/-- Where no escape and no quotes are open, a blank character that is no separator becomes part
of a word. -/
theorem foldl_blanks (blank : forall c, c ∈ blanks -> isBlank c = true)
    (outside : reader.place.opened = .bare) :
    (blanks.foldl Reader.step reader).place.opened = .bare ∧
      (blanks.foldl Reader.step reader).text = reader.text ++ literals blanks := by
  induction blanks generalizing reader with
  | nil => exact ⟨outside, (List.append_nil _).symm⟩
  | cons c blanks ih =>
      have step := step_blank (blank c List.mem_cons_self) outside
      have later := ih (fun d member => blank d (List.mem_cons_of_mem c member)) step.1
      refine ⟨later.1, ?_⟩
      have split : literals (c :: blanks) = literals [c] ++ literals blanks :=
        List.filter_append [c] blanks
      rw [List.foldl_cons, later.2, step.2, split, List.append_assoc]

/-- Blank characters do not close quotes. -/
theorem isQuoted_foldl_blanks (blank : forall c, c ∈ blanks -> isBlank c = true)
    (quoted : reader.place.isQuoted = true) :
    (blanks.foldl Reader.step reader).place.isQuoted = true := by
  induction blanks generalizing reader with
  | nil => exact quoted
  | cons c blanks ih =>
      apply ih fun d member => blank d (List.mem_cons_of_mem c member)
      have notSingle : c ≠ '\'' := ne_of_isBlank (blank c List.mem_cons_self) rfl
      have notDouble : c ≠ '"' := ne_of_isBlank (blank c List.mem_cons_self) rfl
      rcases reader with ⟨place, word, finished⟩
      cases place <;> cases quoted <;> simp only [Reader.step, if_neg notSingle, if_neg notDouble]
      · rfl
      · split_ifs <;> rfl
      · split_ifs <;> rfl

end Blanks

/-! ## Trimming and words -/

/-- Nothing that trimming takes away means anything to a reader.  In front that are separators,
and at the end separators that do not stand behind a backslash, or anything in a comment.  A line
with open quotes has no words in either case. -/
def TrimIsHarmless (line : Text) : Prop :=
  match ((trim line).foldl Reader.step {}).place with
  | .single | .double | .doubleEscape => True
  | .comment => OnlySeparators (leading line)
  | .betweenEscape | .bareEscape => OnlySeparators (leading line) ∧ trailing line = []
  | .between | .bare => OnlySeparators (leading line) ∧ OnlySeparators (trailing line)

theorem foldl_of_comment {reader : Reader} {text : Text} (formed : reader.WellFormed)
    (place : reader.place = .comment) (oneLine : '\n' ∉ text) :
    text.foldl Reader.step reader = reader := by
  have same := Reader.eq_of_wellFormed formed (by rw [place]; rfl)
  rw [same, place, foldl_comment oneLine]

/-- Separators at the end of a line make no difference, unless something is open to which they
belong. -/
theorem finish_foldl_separators {reader : Reader} {text : Text} (formed : reader.WellFormed)
    (outside : reader.place.opened = .bare) (only : OnlySeparators text) :
    (text.foldl Reader.step reader).finish = reader.finish := by
  cases stands : reader.place <;> rw [stands] at outside <;> cases outside
  · have same := Reader.eq_of_wellFormed formed (by rw [stands]; rfl)
    rw [same, stands, foldl_gap (gap_of_onlySeparators only)]
  · rcases reader with ⟨place, word, finished⟩
    cases stands
    cases text with
    | nil => rfl
    | cons c text =>
        have later : OnlySeparators text := fun d member => only d (List.mem_cons_of_mem c member)
        rw [List.foldl_cons, step_bare_of_isSeparator (only c List.mem_cons_self),
          foldl_gap (gap_of_onlySeparators later)]
        rfl

/-- What blank characters at the end of a line become when the reader stands at the place. -/
def Place.remainder (blanks : Text) : Place -> Text
  | .between | .bare => literals blanks
  | .betweenEscape | .bareEscape =>
      match blanks with
      | [] => ['\\']
      | c :: rest => c :: literals rest
  | _ => []

theorem Place.pending_eq_remainder_nil (place : Place) :
    place.pending = place.opened.remainder [] := by
  cases place <;> rfl

theorem Place.length_remainder_nil_le (place : Place) (blanks : Text) :
    (place.remainder []).length ≤ (place.remainder blanks).length := by
  cases place <;> cases blanks <;> simp [Place.remainder, literals]

theorem text_foldl_blanks {reader : Reader} {blanks : Text} (formed : reader.WellFormed)
    (notQuoted : reader.place.isQuoted = false)
    (blank : forall c, c ∈ blanks -> isBlank c = true) (oneLine : '\n' ∉ blanks) :
    (blanks.foldl Reader.step reader).text ++ (blanks.foldl Reader.step reader).place.pending =
      reader.text ++ reader.place.opened.remainder blanks := by
  have inside : forall {reader : Reader} {blanks : Text},
      (forall c, c ∈ blanks -> isBlank c = true) -> reader.place.opened = .bare ->
      (blanks.foldl Reader.step reader).text ++ (blanks.foldl Reader.step reader).place.pending =
        reader.text ++ literals blanks := by
    intro reader blanks blank outside
    rcases foldl_blanks blank outside with ⟨place, text⟩
    rw [text, Place.pending_of_opened place, List.append_nil]
  cases place : reader.place with
  | between => exact inside blank (congrArg Place.opened place)
  | bare => exact inside blank (congrArg Place.opened place)
  | comment =>
      rw [foldl_of_comment formed place oneLine, place]
      rfl
  | betweenEscape | bareEscape =>
      cases blanks with
      | nil =>
          rw [List.foldl_nil, place]
          rfl
      | cons c rest =>
          have notNewline : c ≠ '\n' := fun same => oneLine (same ▸ List.mem_cons_self)
          have step : reader.step c = reader.push c .bare := by
            simp only [Reader.step, place, if_neg notNewline]
          have blankLater := fun d member => blank d (List.mem_cons_of_mem c member)
          rw [List.foldl_cons, step, inside blankLater rfl, Reader.text_push, List.append_assoc]
          rfl
  | single | double | doubleEscape =>
      rw [place] at notQuoted
      cases notQuoted

section Trim

variable {line : Text}

theorem foldl_line (reader : Reader) :
    line.foldl Reader.step reader = (trailing line).foldl Reader.step
      ((trim line).foldl Reader.step ((leading line).foldl Reader.step reader)) := by
  rw [← List.foldl_append, ← List.foldl_append, leading_append_trim_append_trailing]

theorem mem_line_of_mem_trim {c : Char} (member : c ∈ trim line) : c ∈ line := by
  rw [← leading_append_trim_append_trailing line]
  exact List.mem_append_right _ (List.mem_append_left _ member)

theorem mem_line_of_mem_trailing {c : Char} (member : c ∈ trailing line) : c ∈ line := by
  rw [← leading_append_trim_append_trailing line]
  exact List.mem_append_right _ (List.mem_append_right _ member)

theorem foldl_leading (line : Text) :
    ((leading line).foldl Reader.step {}).place.opened = .bare ∧
      ((leading line).foldl Reader.step {}).text = literals (leading line) :=
  foldl_blanks (fun _ => isBlank_of_mem_leading) rfl

theorem wellFormed_foldl_trim (line : Text) : ((trim line).foldl Reader.step {}).WellFormed :=
  Reader.wellFormed_foldl Reader.wellFormed_start _

/-- A line that is a comment once it is trimmed. -/
theorem foldl_trim_of_hash (oneLine : '\n' ∉ line) (hash : (trim line).head? = some '#') :
    (trim line).foldl Reader.step {} = .fresh .comment := by
  have oneLineTrim : '\n' ∉ trim line := mt mem_line_of_mem_trim oneLine
  rcases List.head?_eq_some_iff.mp hash with ⟨rest, same⟩
  rw [same] at oneLineTrim ⊢
  exact foldl_comment (List.not_mem_of_not_mem_cons oneLineTrim)

theorem foldl_trim_of_not_hash (oneLine : '\n' ∉ line) (noHash : (trim line).head? ≠ some '#')
    {reader : Reader} (outside : reader.place.opened = .bare) :
    ((trim line).foldl Reader.step reader).text =
        reader.text ++ ((trim line).foldl Reader.step {}).text ∧
      ((trim line).foldl Reader.step reader).place.opened =
        ((trim line).foldl Reader.step {}).place.opened := by
  have begins : forall c, (trim line).head? = some c -> isSeparator c = false ∧ c ≠ '#' := by
    intro c first
    constructor
    · rcases List.head?_eq_some_iff.mp first with ⟨rest, same⟩
      rw [← Bool.not_eq_true]
      intro separates
      have notBlank := isBlank_of_trim_eq_cons same
      rw [isBlank_of_isSeparator separates] at notBlank
      cases notBlank
    · intro same
      exact noHash (same ▸ first)
  have opened := foldl_opened (mt mem_line_of_mem_trim oneLine) begins
  rcases reader.foldl_relative (trim line) with ⟨place, text⟩
  rw [place, text]
  cases stands : reader.place <;> rw [stands] at outside <;> cases outside
  · exact ⟨rfl, rfl⟩
  · rw [opened.1]
    exact ⟨rfl, opened.2⟩

/-- Quotes that are open in a trimmed line are open in the line. -/
theorem split_eq_none_of_quoted (oneLine : '\n' ∉ line)
    (quoted : ((trim line).foldl Reader.step {}).place.isQuoted = true) :
    split (trim line) = none ∧ split line = none := by
  have noWords : forall {reader : Reader}, reader.place.isQuoted = true ->
      reader.finish = none := by
    intro reader quoted
    apply Option.not_isSome_iff_eq_none.mp
    rw [reader.isSome_finish, quoted]
    decide
  refine ⟨noWords quoted, ?_⟩
  have noHash : (trim line).head? ≠ some '#' := by
    intro hash
    rw [foldl_trim_of_hash oneLine hash] at quoted
    cases quoted
  have middle := foldl_trim_of_not_hash oneLine noHash (foldl_leading line).1
  rw [split, foldl_line]
  apply noWords
  apply isQuoted_foldl_blanks fun c => isBlank_of_mem_trailing
  rw [← Place.isQuoted_opened, middle.2, Place.isQuoted_opened]
  exact quoted

theorem split_trim_eq_split (oneLine : '\n' ∉ line) (harmless : TrimIsHarmless line) :
    split (trim line) = split line := by
  by_cases quoted : ((trim line).foldl Reader.step {}).place.isQuoted = true
  · rcases split_eq_none_of_quoted oneLine quoted with ⟨trimmed, whole⟩
    rw [trimmed, whole]
  · have front : OnlySeparators (leading line) -> split line =
        ((trailing line).foldl Reader.step ((trim line).foldl Reader.step {})).finish := by
      intro only
      have kept : (leading line).foldl Reader.step {} = {} :=
        foldl_gap (gap_of_onlySeparators only)
      rw [split, foldl_line, kept]
    have formed := wellFormed_foldl_trim line
    have oneLineTrailing : '\n' ∉ trailing line := mt mem_line_of_mem_trailing oneLine
    unfold TrimIsHarmless at harmless
    cases place : ((trim line).foldl Reader.step {}).place with
    | between | bare =>
        rw [place] at harmless
        have outside := congrArg Place.opened place
        rw [front harmless.1, finish_foldl_separators formed outside harmless.2]
        rfl
    | comment =>
        rw [place] at harmless
        rw [front harmless, foldl_of_comment formed place oneLineTrailing]
        rfl
    | betweenEscape | bareEscape =>
        rw [place] at harmless
        rw [front harmless.1, harmless.2]
        rfl
    | single | double | doubleEscape =>
        rw [place] at quoted
        exact absurd rfl quoted

/-- The characters that become parts of words: those in front of the trimmed line that do not
separate words, those of the trimmed line, and what the characters behind it become. -/
theorem text_foldl_line (oneLine : '\n' ∉ line) (noHash : (trim line).head? ≠ some '#')
    (notQuoted : ((trim line).foldl Reader.step {}).place.isQuoted = false) :
    (line.foldl Reader.step {}).text ++ (line.foldl Reader.step {}).place.pending =
      literals (leading line) ++ (((trim line).foldl Reader.step {}).text ++
        ((trim line).foldl Reader.step {}).place.opened.remainder (trailing line)) := by
  rcases foldl_leading line with ⟨outside, front⟩
  rcases foldl_trim_of_not_hash oneLine noHash outside with ⟨text, place⟩
  have started := Reader.wellFormed_foldl Reader.wellFormed_start (leading line)
  have formed := Reader.wellFormed_foldl started (trim line)
  have sameQuoted := congrArg Place.isQuoted place
  rw [Place.isQuoted_opened, Place.isQuoted_opened, notQuoted] at sameQuoted
  rw [foldl_line, text_foldl_blanks formed sameQuoted (fun _ => isBlank_of_mem_trailing)
    (mt mem_line_of_mem_trailing oneLine), place, text, front, List.append_assoc]

theorem trimIsHarmless_of_remainder_eq (only : OnlySeparators (leading line))
    (same : ((trim line).foldl Reader.step {}).place.opened.remainder (trailing line) =
      ((trim line).foldl Reader.step {}).place.opened.remainder []) : TrimIsHarmless line := by
  unfold TrimIsHarmless
  cases place : ((trim line).foldl Reader.step {}).place with
  | between | bare =>
      rw [place] at same
      exact ⟨only, literals_eq_nil_iff.mp same⟩
  | comment => exact only
  | betweenEscape | bareEscape =>
      refine ⟨only, ?_⟩
      rw [place] at same
      cases behind : trailing line with
      | nil => rfl
      | cons c rest =>
          rw [behind] at same
          have escaped : c = '\\' := (List.cons.inj same).1
          have blank : isBlank c = true := isBlank_of_mem_trailing (behind ▸ List.mem_cons_self)
          exact absurd escaped (ne_of_isBlank blank rfl)
  | single | double | doubleEscape => trivial

theorem trimIsHarmless_of_split_eq (oneLine : '\n' ∉ line)
    (same : split (trim line) = split line) : TrimIsHarmless line := by
  cases quoted : ((trim line).foldl Reader.step {}).place.isQuoted with
  | true =>
      unfold TrimIsHarmless
      cases place : ((trim line).foldl Reader.step {}).place <;> rw [place] at quoted <;>
        cases quoted <;> trivial
  | false =>
      have closed : (split (trim line)).isSome = true := by
        rw [split, Reader.isSome_finish, quoted]
        rfl
      rcases Option.isSome_iff_exists.mp closed with ⟨words, trimmed⟩
      have formed := Reader.wellFormed_foldl Reader.wellFormed_start line
      have characters := (Reader.flatten_of_finish formed (same.symm.trans trimmed)).symm.trans
        (Reader.flatten_of_finish (wellFormed_foldl_trim line) trimmed)
      by_cases hash : (trim line).head? = some '#'
      · -- The trimmed line has no words at all, so nothing in front of it is part of one.
        have front := (Reader.foldl_relative ((leading line).foldl Reader.step {})
          (trim line ++ trailing line)).2
        rw [List.foldl_append, ← foldl_line, (foldl_leading line).2] at front
        rw [foldl_trim_of_hash oneLine hash, front, List.append_assoc] at characters
        unfold TrimIsHarmless
        rw [foldl_trim_of_hash oneLine hash]
        exact literals_eq_nil_iff.mp (List.append_eq_nil_iff.mp characters).1
      · -- No character behind the trimmed line is lost, so the lengths leave none in front.
        rw [text_foldl_line oneLine hash quoted, Place.pending_eq_remainder_nil] at characters
        have longer := Place.length_remainder_nil_le
          ((trim line).foldl Reader.step {}).place.opened (trailing line)
        have lengths := congrArg List.length characters
        simp only [List.length_append] at lengths
        have noFront : literals (leading line) = [] := List.eq_nil_of_length_eq_zero (by omega)
        rw [noFront, List.nil_append, List.append_cancel_left_eq] at characters
        exact trimIsHarmless_of_remainder_eq (literals_eq_nil_iff.mp noFront) characters

/-- The words of a trimmed line are those of the line exactly if trimming is harmless. -/
theorem split_trim_eq_split_iff (oneLine : '\n' ∉ line) :
    split (trim line) = split line ↔ TrimIsHarmless line :=
  ⟨trimIsHarmless_of_split_eq oneLine, split_trim_eq_split oneLine⟩

end Trim

end Words

end MiniShell
