import MiniShell.Proofs.TrackedDirectory
import MiniShell.Proofs.VerbatimWords
import MiniShell.Proofs.WordCompletion

namespace MiniShell

/-!
# Accepting a file name

A replacement is put into a line as it is, without quotes or escapes, and then the
line is split like any other.  So the name that was chosen comes out again exactly if
it can be typed as it is.  The names for which this is so are given here, for each form
that a replacement can have: a space may be put behind it, and a backslash at the end of
the name would make this space a part of it.

If the name does come out, then concatenation prints the file of this name in the
tracked directory.
-/

/-! ## The word at the end of a line -/

/-- At the end of a line the word begins behind the last space. -/
theorem Completion.Cursor.at?_end {before word : Text} (afterSpace : before.getLast? = some ' ')
    (noSpace : ' ' ∉ word) :
    at? (before ++ word) (Utf8.encode (before ++ word)).length = some ⟨before, word⟩ := by
  rcases List.getLast?_eq_some_iff.mp afterSpace with ⟨front, same⟩
  have inWord : forall c, c ∈ word.reverse -> (c != ' ') = true := by
    intro c member
    apply bne_iff_ne.mpr
    intro space
    rw [space] at member
    exact noSpace (List.mem_reverse.mp member)
  have reversed : (before ++ word).reverse = word.reverse ++ ' ' :: front.reverse := by
    rw [same]
    simp only [List.reverse_append, List.reverse_singleton, List.singleton_append]
  have cut := Utf8.cut?_append (before ++ word) []
  rw [List.append_nil] at cut
  rw [at?, cut]
  simp only [Option.map_some, reversed, List.dropWhile_append_of_pos inWord,
    List.takeWhile_append_of_pos inWord]
  rw [same]
  simp

/-! ## Arguments that come out again -/

namespace Words

/-- The argument comes out of a line at whose end it was put in this form. -/
def ComesOut (argument written : Text) : Prop :=
  IsBareWord argument ∨ written = argument ∧ EndsInBackslash argument

theorem split_cat_iff {argument written : Text}
    (form : written = argument ∨ written = argument ++ [' ']) :
    split ("cat ".toList ++ written) = some ["cat".toList, argument] ↔
      ComesOut argument written := by
  have begun : "cat ".toList.foldl Reader.step {} = .after ["cat".toList] := by decide
  rw [split, List.foldl_append, begun]
  rcases form with same | same
  · rw [same, ComesOut, and_iff_right rfl]
    exact finish_verbatim_iff
  · have longer : written ≠ argument := by
      intro shorter
      rw [shorter] at same
      exact List.cons_ne_nil _ _ (List.self_eq_append_right.mp same)
    rw [same] at longer ⊢
    rw [ComesOut, or_iff_left (mt And.left longer)]
    exact finish_verbatim_space_iff

theorem ComesOut.ne_nil {argument written : Text} (out : ComesOut argument written) :
    argument ≠ [] := by
  rcases out with bare | ⟨_, front, same, _⟩
  · exact bare.nonempty
  · rw [same]
    exact List.append_ne_nil_of_right_ne_nil _ (List.cons_ne_nil _ _)

end Words

/-! ## A name in a directory -/

theorem Path.slash_not_mem_encode {text : Text} (noSlash : '/' ∉ text) :
    slash ∉ Utf8.encode text := by
  intro member
  rcases List.mem_flatMap.mp member with ⟨c, among, encoded⟩
  rw [eq_of_slash_mem_encodeChar encoded] at among
  exact noSlash among

theorem Path.isAbsolute_encode_of_not_mem {text : Text} (noSlash : '/' ∉ text) :
    isAbsolute (Utf8.encode text) = false := by
  apply Bool.eq_false_iff.mpr
  intro absolute
  exact slash_not_mem_encode noSlash (List.mem_of_head? (beq_iff_eq.mp absolute))

/-- At any point of a session, a line with the name of a file in the tracked directory prints
this file. -/
theorem Session.execute_of_hasFile (rule : PathRule) (directory : Path) (steps : List Step)
    {files : FileView} {line name : Text} {contents : Bytes}
    (words : Words.split line = some ["cat".toList, name]) (given : name ≠ [])
    (noSlash : '/' ∉ name)
    (has : files.HasFile
      (Utf8.encode (Variables.directoryMarker directory) ++ Utf8.encode name) contents)
    (input : Source) :
    let round := ((start rule directory).after steps).execute files line { input := input }
    round.result = .ok (.next 0) ∧ round.streams.output.stored = contents ++ [Source.newline] ∧
      round.streams.error.stored = [] := by
  intro round
  have tracked := (holds_after rule directory steps).directory
  have relative := Path.isAbsolute_encode_of_not_mem noSlash
  have leaves : round.Leaves _ := leaves_of_hasFile tracked words given relative has input
  exact ⟨leaves.result, leaves.output.trans (List.append_nil _), leaves.error⟩

namespace Completion

variable {commands : List Text} {listing : Option (List Entry)} {cursor : Cursor}
  {candidate : Candidate}

/-- The text that stands for an entry: a directory ends in a slash. -/
def argumentOf (name : Text) (isDirectory : Bool) : Text :=
  name ++ if isDirectory then ['/'] else []

/-- Behind the first word of a line each candidate is an entry of the listing, and what it puts
into the line is the text for the entry, perhaps with a space. -/
theorem exists_entry_of_mem_candidates (later : cursor.before.all Blank.isBlank = false)
    (member : candidate ∈ candidates commands listing cursor) :
    exists isDirectory, ⟨Utf8.encode candidate.display, isDirectory⟩ ∈ listing.getD [] ∧
      (candidate.replacement = argumentOf candidate.display isDirectory ∨
        candidate.replacement = argumentOf candidate.display isDirectory ++ [' ']) := by
  have completes := completes_candidates commands listing cursor
  rcases completes.replacements candidate member with ⟨offered, offer, same⟩
  have put : candidate.replacement = offered ∨ candidate.replacement = offered ++ [' '] := by
    split at same
    · exact .inr same
    · exact .inl (same.trans (List.append_nil _))
  cases offer with
  | command first _ _ =>
      rw [first] at later
      cases later
  | @entry _ isDirectory _ listed _ => exact ⟨isDirectory, listed, put⟩

/-- The only file of a directory, if the word is the beginning of its name. -/
theorem candidates_of_only_file {name : Text} (later : cursor.before.all Blank.isBlank = false)
    (typed : cursor.word <+: name) (noSlash : name.getLast? ≠ some '/') (commands : List Text) :
    candidates commands (some [⟨Utf8.encode name, false⟩]) cursor =
      [⟨name, name ++ [' ']⟩] := by
  have begins : cursor.word.isPrefixOf name = true := List.isPrefixOf_iff_prefix.mpr typed
  have entry : entryCandidate? cursor.word ⟨Utf8.encode name, false⟩ = some ⟨name, name⟩ := by
    simp only [entryCandidate?, Utf8.decode?_encode, Option.bind_some, begins, if_true,
      Bool.false_eq_true, if_false]
  simp only [candidates, later, Bool.false_eq_true, if_false, Option.getD_some,
    List.filterMap_cons, entry, List.filterMap_nil, List.mergeSort_singleton, dropRepeats,
    endSingle, if_neg noSlash]

/-- Accepting any candidate behind `cat`, for any word without a space.  The candidate is an
entry of the listing.  The completed line has the words `cat` and the name, with a slash if it
is a directory, exactly if the name is not empty, does not begin with a hash sign, and has
neither separators nor quotes nor backslashes.  A backslash at its end is no harm if no space
is put behind it.  If the words are these, then a file of this name in the tracked directory is
printed, wherever the directory is and whatever has happened in the session. -/
theorem completed_line_names_entry_iff {typed : Text} (noSpace : ' ' ∉ typed)
    (commands : List Text) (listing : Option (List Entry)) :
    let line := "cat ".toList ++ typed
    exists cursor, Cursor.at? line (Utf8.encode line).length = some cursor ∧
      cursor.before = "cat ".toList ∧ cursor.word = typed ∧
      forall candidate, candidate ∈ candidates commands listing cursor ->
        let completed := cursor.before ++ candidate.replacement
        exists isDirectory, ⟨Utf8.encode candidate.display, isDirectory⟩ ∈ listing.getD [] ∧
          let argument := argumentOf candidate.display isDirectory
          (candidate.replacement = argument ∨ candidate.replacement = argument ++ [' ']) ∧
          (Words.split completed = some ["cat".toList, argument] ↔
            Words.ComesOut argument candidate.replacement) ∧
          (Words.ComesOut argument candidate.replacement -> isDirectory = false ->
            '/' ∉ candidate.display ->
            forall rule directory steps files input contents,
              files.HasFile (Utf8.encode (Variables.directoryMarker directory) ++
                Utf8.encode candidate.display) contents ->
              let session := (Session.start rule directory).after steps
              let round := session.execute files completed { input := input }
              round.result = .ok (.next 0) ∧
                round.streams.output.stored = contents ++ [Source.newline] ∧
                round.streams.error.stored = []) := by
  intro line
  have afterSpace : "cat ".toList.getLast? = some ' ' := by decide
  have later : "cat ".toList.all Blank.isBlank = false := by decide
  refine ⟨_, Cursor.at?_end afterSpace noSpace, rfl, rfl, ?_⟩
  intro candidate member completed
  rcases exists_entry_of_mem_candidates later member with ⟨isDirectory, listed, put⟩
  have words := Words.split_cat_iff put
  refine ⟨isDirectory, listed, put, words, ?_⟩
  intro out isFile noSlash rule directory steps files input contents has
  have split := words.mpr out
  have given := out.ne_nil
  have plain : argumentOf candidate.display isDirectory = candidate.display := by
    rw [isFile]
    exact List.append_nil _
  rw [plain] at split given
  exact Session.execute_of_hasFile rule directory steps split given noSlash has input

/-- The only file that there is, which is completed from its first letter. -/
theorem completed_line_prints_only_file :
    let listing := some [⟨Utf8.encode "ab".toList, false⟩]
    let files : FileView :=
      .ofRecords [{ path := Utf8.encode "/d/ab".toList, contents := .ok (Utf8.encode ['x']) }]
    let session := (Session.start .append (Utf8.encode "/d".toList)).after []
    let round := session.execute files "cat ab ".toList {}
    ' ' ∉ "a".toList ∧
      candidates [] listing ⟨"cat ".toList, "a".toList⟩ = [⟨"ab".toList, "ab ".toList⟩] ∧
      Words.split "cat ab ".toList = some ["cat".toList, "ab".toList] ∧
      round.result = .ok (.next 0) ∧ round.streams.output.stored = Utf8.encode "x\n".toList ∧
      round.streams.error.stored = [] := by
  intro listing files session round
  have noSpace : ' ' ∉ "a".toList := by decide
  have only : candidates [] listing ⟨"cat ".toList, "a".toList⟩ =
      [⟨"ab".toList, "ab ".toList⟩] :=
    candidates_of_only_file (by decide) (by decide) (by decide) []
  rcases completed_line_names_entry_iff noSpace [] listing with
    ⟨⟨before, word⟩, _, rfl, rfl, known⟩
  have member : ⟨"ab".toList, "ab ".toList⟩ ∈ candidates [] listing ⟨"cat ".toList, "a".toList⟩ :=
    only ▸ List.mem_singleton_self _
  rcases known _ member with ⟨isDirectory, listed, _, words, prints⟩
  have isFile : isDirectory = false := congrArg Entry.isDirectory (List.mem_singleton.mp listed)
  subst isFile
  have out : Words.ComesOut "ab".toList "ab ".toList := .inl (by decide)
  have marker : Variables.directoryMarker (Utf8.encode "/d".toList) = "/d/".toList :=
    Variables.directoryMarker_encode _
  have has : files.HasFile (Utf8.encode (Variables.directoryMarker (Utf8.encode "/d".toList)) ++
      Utf8.encode "ab".toList) (Utf8.encode ['x']) := by
    rw [marker]
    exact ⟨by decide, by decide, by decide, by rfl⟩
  exact ⟨noSpace, only, words.mpr out,
    prints out rfl (by decide) .append _ [] files {} _ has⟩

/-- A name with a space is completed to a line with three words.  The file is there, and two
others are looked for. -/
theorem completed_line_loses_space :
    let listing := some [⟨Utf8.encode "a b".toList, false⟩]
    let cursor : Cursor := ⟨"cat ".toList, "a".toList⟩
    let completed := cursor.before ++ "a b ".toList
    let files : FileView :=
      .ofRecords [{ path := Utf8.encode "/d/a b".toList, contents := .ok (Utf8.encode ['x']) }]
    let session := (Session.start .append (Utf8.encode "/d".toList)).after []
    let round := session.execute files completed {}
    Cursor.at? "cat a".toList 5 = some cursor ∧
      candidates [] listing cursor = [⟨"a b".toList, "a b ".toList⟩] ∧
      Words.split completed ≠ some ["cat".toList, "a b".toList] ∧
      files.HasFile (Utf8.encode "/d/a b".toList) (Utf8.encode ['x']) ∧
      round.result = .ok (.next 1) ∧ round.streams.output.stored = [] := by
  intro listing cursor completed files session round
  have stands : Cursor.at? "cat a".toList 5 = some cursor := by decide
  have only : candidates [] listing cursor = [⟨"a b".toList, "a b ".toList⟩] :=
    candidates_of_only_file (by decide) (by decide) (by decide) []
  have words : Words.split completed = some [Concatenation.name, "a".toList, "b".toList] := by
    decide
  have marker : Variables.directoryMarker (Utf8.encode "/d".toList) = "/d/".toList :=
    Variables.directoryMarker_encode _
  have tracked := (Session.holds_after .append (Utf8.encode "/d".toList) []).directory
  rw [marker] at tracked
  have leaves : round.Leaves _ :=
    Session.leaves_execute words (List.cons_ne_nil _ _) tracked files {}
  refine ⟨stands, only, ?_, ⟨by decide, by decide, by decide, by rfl⟩, leaves.result,
    leaves.output⟩
  rw [words]
  decide

end Completion
end MiniShell
