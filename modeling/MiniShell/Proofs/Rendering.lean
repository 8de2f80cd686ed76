import MiniShell.Command.Builtin

namespace MiniShell
namespace Words

/-!
# Writing words down

A word can be written in many ways: bare, behind backslashes, in either kind of
quotes, and in any mixture of these.  `Renders` relates words to all lines that
are made of such spellings, with separators, comments and joined lines between
them.  Whatever line is chosen, splitting gives the words back.

Reading is a fold, so what a piece does to a reader can be said without the
rest of the line.  Inside a word a piece adds its value to the open word and
leaves the reader inside.  The first piece of a word meets a reader outside,
for which only a hash sign and a joined line are different.
-/

/-! ## Pieces, words and lines -/

/-- A character that has no meaning of its own in a word. -/
def IsPlain (c : Char) : Prop :=
  isSeparator c = false ∧ c ≠ '\'' ∧ c ≠ '"' ∧ c ≠ '\\'

instance decidableIsPlain : DecidablePred IsPlain := fun c =>
  inferInstanceAs (Decidable (isSeparator c = false ∧ c ≠ '\'' ∧ c ≠ '"' ∧ c ≠ '\\'))

/-- A text and how it is written between double quotes.  Lines may be joined anywhere. -/
inductive Quoted : Text -> Text -> Prop where
  | nil : Quoted [] []
  | plain {value written : Text} (c : Char) (literal : isEscapable c = false)
      (rest : Quoted value written) : Quoted (c :: value) (c :: written)
  | escaped {value written : Text} (c : Char) (escapable : isEscapable c = true)
      (rest : Quoted value written) : Quoted (c :: value) ('\\' :: c :: written)
  | joined {value written : Text} (rest : Quoted value written) :
      Quoted value ('\\' :: '\n' :: written)

/-- A piece of a word: the value first, and then how it is written. -/
inductive Piece : Text -> Text -> Prop where
  | bare {text : Text} (nonempty : text ≠ []) (plain : forall c, c ∈ text -> IsPlain c) :
      Piece text text
  | escaped {c : Char} (notNewline : c ≠ '\n') : Piece [c] ['\\', c]
  | single {text : Text} (noQuote : '\'' ∉ text) : Piece text ('\'' :: (text ++ ['\'']))
  | double {value written : Text} (quoted : Quoted value written) :
      Piece value ('"' :: (written ++ ['"']))

/-- What may follow the first piece of a word. -/
inductive Pieces : Text -> Text -> Prop where
  | nil : Pieces [] []
  | cons {first firstWritten value written : Text} (piece : Piece first firstWritten)
      (rest : Pieces value written) : Pieces (first ++ value) (firstWritten ++ written)
  | joined {value written : Text} (rest : Pieces value written) :
      Pieces value ('\\' :: '\n' :: written)

/-- A word and how it is written.  A word does not begin like a comment. -/
inductive Spelling : Text -> Text -> Prop where
  | intro {first firstWritten value written : Text} (piece : Piece first firstWritten)
      (noComment : firstWritten.head? ≠ some '#') (rest : Pieces value written) :
      Spelling (first ++ value) (firstWritten ++ written)

/-- What may stand where no word is open. -/
inductive Gap : Text -> Prop where
  | nil : Gap []
  | separator {c : Char} {rest : Text} (separates : isSeparator c = true) (gap : Gap rest) :
      Gap (c :: rest)
  | joined {rest : Text} (gap : Gap rest) : Gap ('\\' :: '\n' :: rest)
  | comment {text rest : Text} (oneLine : '\n' ∉ text) (gap : Gap rest) :
      Gap ('#' :: (text ++ '\n' :: rest))

/-- Words and a line that they can be written as.  A separator follows every word but the
last one, after which there may be one. -/
inductive Renders : List Text -> Text -> Prop where
  | blank {gap : Text} (blank : Gap gap) : Renders [] gap
  | comment {gap text : Text} (blank : Gap gap) (oneLine : '\n' ∉ text) :
      Renders [] (gap ++ '#' :: text)
  | last {gap word written : Text} (blank : Gap gap) (spelling : Spelling word written) :
      Renders [word] (gap ++ written)
  | cons {gap word written line : Text} {c : Char} {words : List Text} (blank : Gap gap)
      (spelling : Spelling word written) (separates : isSeparator c = true)
      (rest : Renders words line) : Renders (word :: words) (gap ++ written ++ c :: line)

/-! ## Reading inside a word -/

variable {finished : List Text}

theorem foldl_single {text word : Text} (noQuote : '\'' ∉ text) :
    text.foldl Reader.step ⟨.single, word, finished⟩ =
      ⟨.single, text.reverse ++ word, finished⟩ := by
  induction text generalizing word with
  | nil => rfl
  | cons c text ih =>
      rcases not_or.mp (mt List.mem_cons.mpr noQuote) with ⟨different, later⟩
      have step : Reader.step ⟨.single, word, finished⟩ c = ⟨.single, c :: word, finished⟩ := by
        simp only [Reader.step, if_neg (Ne.symm different), Reader.push]
      rw [List.foldl_cons, step, ih later, List.reverse_cons, List.append_assoc]
      rfl

theorem foldl_quoted {value written word : Text} (quoted : Quoted value written) :
    written.foldl Reader.step ⟨.double, word, finished⟩ =
      ⟨.double, value.reverse ++ word, finished⟩ := by
  induction quoted generalizing word with
  | nil => rfl
  | plain c literal rest ih =>
      have step : Reader.step ⟨.double, word, finished⟩ c = ⟨.double, c :: word, finished⟩ := by
        have notQuote : c ≠ '"' := by
          intro same
          subst same
          cases literal
        have notBackslash : c ≠ '\\' := by
          intro same
          subst same
          cases literal
        simp only [Reader.step, if_neg notQuote, if_neg notBackslash, Reader.push]
      rw [List.foldl_cons, step, ih, List.reverse_cons, List.append_assoc]
      rfl
  | escaped c escapable rest ih =>
      have step : Reader.step ⟨.doubleEscape, word, finished⟩ c =
          ⟨.double, c :: word, finished⟩ := by
        have notNewline : c ≠ '\n' := by
          intro same
          subst same
          cases escapable
        simp only [Reader.step, if_neg notNewline, escapable, if_true, Reader.push]
      have begun : Reader.step ⟨.double, word, finished⟩ '\\' =
          ⟨.doubleEscape, word, finished⟩ := rfl
      rw [List.foldl_cons, begun, List.foldl_cons, step, ih, List.reverse_cons,
        List.append_assoc]
      rfl
  | joined rest ih => exact ih

theorem step_bare_of_isPlain {c : Char} (plain : IsPlain c) (word : Text) :
    Reader.step ⟨.bare, word, finished⟩ c = ⟨.bare, c :: word, finished⟩ := by
  rcases plain with ⟨separates, notSingle, notDouble, notBackslash⟩
  simp only [Reader.step, separates, Bool.false_eq_true, if_false, if_neg notSingle,
    if_neg notDouble, if_neg notBackslash, Reader.push]

theorem foldl_bare {text word : Text} (plain : forall c, c ∈ text -> IsPlain c) :
    text.foldl Reader.step ⟨.bare, word, finished⟩ =
      ⟨.bare, text.reverse ++ word, finished⟩ := by
  induction text generalizing word with
  | nil => rfl
  | cons c text ih =>
      have later := fun d member => plain d (List.mem_cons_of_mem c member)
      rw [List.foldl_cons, step_bare_of_isPlain (plain c List.mem_cons_self), ih later,
        List.reverse_cons, List.append_assoc]
      rfl

/-- A piece adds its value to a word that is open. -/
theorem foldl_piece {value written word : Text} (piece : Piece value written) :
    written.foldl Reader.step ⟨.bare, word, finished⟩ =
      ⟨.bare, value.reverse ++ word, finished⟩ := by
  cases piece with
  | bare nonempty plain => exact foldl_bare plain
  | @escaped c notNewline =>
      change Reader.step ⟨.bareEscape, word, finished⟩ c = ⟨.bare, c :: word, finished⟩
      simp only [Reader.step, if_neg notNewline, Reader.push]
  | @single text noQuote =>
      have opened : Reader.step ⟨.bare, word, finished⟩ '\'' = ⟨.single, word, finished⟩ := rfl
      rw [List.foldl_cons, opened, List.foldl_append, foldl_single noQuote]
      rfl
  | @double value written quoted =>
      have opened : Reader.step ⟨.bare, word, finished⟩ '"' = ⟨.double, word, finished⟩ := rfl
      rw [List.foldl_cons, opened, List.foldl_append, foldl_quoted quoted]
      rfl

theorem foldl_pieces {value written word : Text} (pieces : Pieces value written) :
    written.foldl Reader.step ⟨.bare, word, finished⟩ =
      ⟨.bare, value.reverse ++ word, finished⟩ := by
  induction pieces generalizing word with
  | nil => rfl
  | cons piece rest ih =>
      rw [List.foldl_append, foldl_piece piece, ih, List.reverse_append, List.append_assoc]
  | joined rest ih => exact ih

/-! ## Reading outside of words -/

/-- The first piece of a word opens it, and is then read as if the word had been open. -/
theorem foldl_first_piece {value written : Text} (piece : Piece value written)
    (noComment : written.head? ≠ some '#') :
    written.foldl Reader.step ⟨.between, [], finished⟩ =
      written.foldl Reader.step ⟨.bare, [], finished⟩ := by
  cases piece with
  | bare nonempty plain =>
      cases value with
      | nil => exact absurd rfl nonempty
      | cons c text =>
          rcases plain c List.mem_cons_self with
            ⟨separates, notSingle, notDouble, notBackslash⟩
          have notHash : c ≠ '#' := fun same => noComment (congrArg some same)
          have opened : Reader.step ⟨.between, [], finished⟩ c = ⟨.bare, [c], finished⟩ := by
            simp only [Reader.step, separates, Bool.false_eq_true, if_false, if_neg notSingle,
              if_neg notDouble, if_neg notBackslash, if_neg notHash, Reader.push]
          rw [List.foldl_cons, List.foldl_cons, opened,
            step_bare_of_isPlain (plain c List.mem_cons_self)]
  | @escaped c notNewline =>
      change Reader.step ⟨.betweenEscape, [], finished⟩ c =
        Reader.step ⟨.bareEscape, [], finished⟩ c
      simp only [Reader.step, if_neg notNewline, Reader.push]
  | single noQuote => rfl
  | double quoted => rfl

theorem foldl_spelling {word written : Text} (spelling : Spelling word written) :
    written.foldl Reader.step ⟨.between, [], finished⟩ = ⟨.bare, word.reverse, finished⟩ := by
  rcases spelling with ⟨piece, noComment, rest⟩
  rw [List.foldl_append, foldl_first_piece piece noComment, foldl_piece piece,
    foldl_pieces rest, List.append_nil, List.reverse_append]

theorem foldl_comment {text : Text} (oneLine : '\n' ∉ text) :
    text.foldl Reader.step ⟨.comment, [], finished⟩ = ⟨.comment, [], finished⟩ := by
  induction text with
  | nil => rfl
  | cons c text ih =>
      rcases not_or.mp (mt List.mem_cons.mpr oneLine) with ⟨different, later⟩
      have step : Reader.step ⟨.comment, [], finished⟩ c = ⟨.comment, [], finished⟩ := by
        simp only [Reader.step, if_neg (Ne.symm different)]
      rw [List.foldl_cons, step, ih later]

theorem step_between_of_isSeparator {c : Char} (separates : isSeparator c = true) :
    Reader.step ⟨.between, [], finished⟩ c = ⟨.between, [], finished⟩ := by
  simp only [Reader.step, separates, if_true]

theorem foldl_gap {gap : Text} (blank : Gap gap) :
    gap.foldl Reader.step ⟨.between, [], finished⟩ = ⟨.between, [], finished⟩ := by
  induction blank with
  | nil => rfl
  | separator separates rest ih => rw [List.foldl_cons, step_between_of_isSeparator separates, ih]
  | joined rest ih => exact ih
  | comment oneLine rest ih =>
      have begun : Reader.step ⟨.between, [], finished⟩ '#' = ⟨.comment, [], finished⟩ := rfl
      rw [List.foldl_cons, begun, List.foldl_append, foldl_comment oneLine]
      exact ih

theorem step_bare_of_isSeparator {c : Char} (separates : isSeparator c = true) (word : Text) :
    Reader.step ⟨.bare, word, finished⟩ c = ⟨.between, [], word.reverse :: finished⟩ := by
  simp only [Reader.step, separates, if_true, Reader.close]

/-! ## Lines -/

theorem finish_foldl_of_renders {words : List Text} {line : Text}
    (renders : Renders words line) :
    (line.foldl Reader.step ⟨.between, [], finished⟩).finish =
      some (finished.reverse ++ words) := by
  induction renders generalizing finished with
  | blank blank =>
      rw [foldl_gap blank, List.append_nil]
      rfl
  | comment blank oneLine =>
      have begun : Reader.step ⟨.between, [], finished⟩ '#' = ⟨.comment, [], finished⟩ := rfl
      rw [List.foldl_append, foldl_gap blank, List.foldl_cons, begun, foldl_comment oneLine,
        List.append_nil]
      rfl
  | last blank spelling =>
      rw [List.foldl_append, foldl_gap blank, foldl_spelling spelling]
      simp only [Reader.finish, Reader.close, List.reverse_reverse, List.reverse_cons]
  | cons blank spelling separates rest ih =>
      rw [List.foldl_append, List.foldl_append, foldl_gap blank, foldl_spelling spelling,
        List.foldl_cons, step_bare_of_isSeparator separates, List.reverse_reverse, ih,
        List.reverse_cons, List.append_assoc]
      rfl

/-- Splitting a line gives back the words that it was written for. -/
theorem split_of_renders {words : List Text} {line : Text} (renders : Renders words line) :
    split line = some words :=
  finish_foldl_of_renders renders

/-! ## A line for any words -/

def quote (word : Text) : Text :=
  '"' :: (word.flatMap (fun c => if isEscapable c then ['\\', c] else [c]) ++ ['"'])

theorem quoted_flatMap (word : Text) :
    Quoted word (word.flatMap fun c => if isEscapable c then ['\\', c] else [c]) := by
  induction word with
  | nil => exact .nil
  | cons c word ih =>
      rw [List.flatMap_cons]
      cases escapable : isEscapable c with
      | true => exact .escaped c escapable ih
      | false => exact .plain c escapable ih

theorem spelling_quote (word : Text) : Spelling word (quote word) := by
  have spelled : Spelling (word ++ []) (quote word ++ []) :=
    .intro (.double (quoted_flatMap word)) (by intro same; cases same) .nil
  rw [List.append_nil, List.append_nil] at spelled
  exact spelled

/-- A word without characters of a meaning can be written as it is. -/
theorem spelling_self {word : Text} (nonempty : word ≠ []) (noComment : word.head? ≠ some '#')
    (plain : word.all (IsPlain ·) = true) : Spelling word word := by
  have eachPlain : forall c, c ∈ word -> IsPlain c := by
    intro c member
    exact of_decide_eq_true (List.all_eq_true.mp plain c member)
  have spelled : Spelling (word ++ []) (word ++ []) :=
    .intro (.bare nonempty eachPlain) noComment .nil
  rw [List.append_nil] at spelled
  exact spelled

/-- Any words can be written, for instance between double quotes and with a space behind
each. -/
theorem renders_quote (words : List Text) :
    Renders words (words.flatMap fun word => quote word ++ [' ']) := by
  induction words with
  | nil => exact .blank .nil
  | cons word words ih =>
      rw [List.flatMap_cons, List.append_assoc]
      exact .cons .nil (spelling_quote word) rfl ih

end Words

/-! ## Commands behind a rendering -/

namespace Registry

/-- Carry out a command whose name and arguments are known.  The code with which it would end
the shell is asked for first. -/
def dispatch (registry : Registry) (name : Text) (arguments : List Text) (scope : Variables) :
    StreamM Flow :=
  match registry.exitCode? name arguments, registry.run? name arguments scope with
  | some code, _ => pure (.exit code)
  | none, some run => run >>= fun status => pure (.next status)
  | none, none => throw (.commandNotFound (name ++ ": command not found".toList))

theorem handle_of_split {registry : Registry} {line name : Text} {arguments : List Text}
    (split : Words.split line = some (name :: arguments)) (scope : Variables) :
    registry.handle line scope = registry.dispatch name arguments scope := by
  rw [handle, split, dispatch]
  dsimp only
  cases registry.exitCode? name arguments with
  | some code => rfl
  | none => cases registry.run? name arguments scope <;> rfl

/-- A line is carried out by what a registry says of its first word. -/
theorem handle_congr {first second : Registry} {line : Text} {scope other : Variables}
    (exits : forall name arguments, Words.split line = some (name :: arguments) ->
      first.exitCode? name arguments = second.exitCode? name arguments)
    (runs : forall name arguments, Words.split line = some (name :: arguments) ->
      first.run? name arguments scope = second.run? name arguments other) :
    first.handle line scope = second.handle line other := by
  cases words : Words.split line with
  | none => simp only [handle, words]
  | some found =>
      cases found with
      | nil => simp only [handle, words]
      | cons name arguments =>
          simp only [handle, words, exits name arguments words, runs name arguments words]

/-- A command gets exactly the words that a line was written for.  Any words can be written,
and on every line that they are written as, the first word is carried out with the others
as its arguments. -/
theorem handle_renders (registry : Registry) (scope : Variables) (name : Text)
    (arguments : List Text) :
    (exists line, Words.Renders (name :: arguments) line) ∧
    forall line, Words.Renders (name :: arguments) line ->
      registry.handle line scope = registry.dispatch name arguments scope := by
  constructor
  · exact ⟨_, Words.renders_quote (name :: arguments)⟩
  · intro line renders
    exact handle_of_split (Words.split_of_renders renders) scope

/-- A name in three kinds of spelling, an argument behind a backslash, and a comment. -/
theorem handle_mixed_spellings :
    (Builtin.registry .append (.ofRecords [])).handle
        "\te'ch'\"o\" \\#' '\"\\$\" # twice".toList {} =
      (Builtin.registry .append (.ofRecords [])).dispatch "echo".toList ["# $".toList] {} := by
  have e : Words.Piece ['e'] ['e'] :=
    .bare (by decide) (List.forall_mem_singleton.mpr (by decide))
  have ch : Words.Piece ['c', 'h'] ['\'', 'c', 'h', '\''] := .single (by decide)
  have o : Words.Piece ['o'] ['"', 'o', '"'] := .double (.plain 'o' rfl .nil)
  have hash : Words.Piece ['#'] ['\\', '#'] := .escaped (by decide)
  have space : Words.Piece [' '] ['\'', ' ', '\''] := .single (by decide)
  have dollar : Words.Piece ['$'] ['"', '\\', '$', '"'] := .double (.escaped '$' rfl .nil)
  have name : Words.Spelling "echo".toList "e'ch'\"o\"".toList :=
    .intro e (by decide) (.cons ch (.cons o .nil))
  have argument : Words.Spelling "# $".toList "\\#' '\"\\$\"".toList :=
    .intro hash (by decide) (.cons space (.cons dollar .nil))
  have comment : Words.Renders [] "# twice".toList := .comment .nil (by decide)
  have renders : Words.Renders ["echo".toList, "# $".toList]
      "\te'ch'\"o\" \\#' '\"\\$\" # twice".toList :=
    .cons (.separator rfl .nil) name rfl (.cons .nil argument rfl comment)
  exact (handle_renders _ _ _ _).2 _ renders

end Registry
end MiniShell
