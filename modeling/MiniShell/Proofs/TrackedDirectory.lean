import MiniShell.Proofs.ConcatenationLines
import MiniShell.Proofs.Decoding
import MiniShell.Proofs.PathRuleIndependence

namespace MiniShell

/-!
# The directory that is tracked

A session is started in a directory, which may be any sequence of bytes, and it
keeps a text.  If the bytes spell a text, the marker is the directory itself with
a slash at its end, so under either rule a relative argument is looked for in the
directory that was asked for, and nowhere else first.

If they do not, a replacement character stands in the marker for what could not
be read.  Then the marker names another directory.  A file in the directory that
was asked for is never looked at.
-/

/-! ## From a directory to its marker -/

namespace Path

/-- The path of a directory as it stands in front of the names that are in it. -/
def asDirectory (path : Path) : Path :=
  if endsInSlash path then path else path ++ [slash]

theorem asDirectory_ne_nil (path : Path) : asDirectory path ≠ [] := by
  rw [asDirectory]
  split
  · next ends =>
      intro empty
      rw [empty] at ends
      cases ends
  · exact List.append_ne_nil_of_right_ne_nil _ (List.cons_ne_nil _ _)

/-- Only the slash has the byte of a slash in its encoding. -/
theorem eq_of_slash_mem_encodeChar {c : Char} (member : slash ∈ Utf8.encodeChar c) : c = '/' := by
  have code : c.toNat = slash.toNat := Utf8.toNat_of_mem_encodeChar (by decide) member
  exact Char.toNat_inj.mp code

theorem getLast?_of_endsInSlash_encode {text : Text}
    (ends : endsInSlash (Utf8.encode text) = true) : text.getLast? = some '/' := by
  rcases List.eq_nil_or_concat' text with empty | ⟨front, c, same⟩
  · rw [empty] at ends
    cases ends
  · have last : (Utf8.encodeChar c).getLast? = some slash := by
      have nonempty : Utf8.encodeChar c ≠ [] :=
        List.ne_nil_of_length_pos (Utf8.length_encodeChar_pos c)
      rw [endsInSlash, beq_iff_eq, same, Utf8.encode_append, Utf8.encode_cons, Utf8.encode_nil,
        List.append_nil, List.getLast?_append_of_ne_nil _ nonempty] at ends
      exact ends
    have char : c = '/' := eq_of_slash_mem_encodeChar (List.mem_of_getLast? last)
    rw [same, char, List.getLast?_concat]

end Path

namespace Variables

theorem exists_directoryMarker_eq (directory : Path) :
    exists front, directoryMarker directory = front ++ ['/'] :=
  List.getLast?_eq_some_iff.mp (getLast?_directoryMarker directory)

theorem directoryMarker_encode (text : Text) :
    directoryMarker (Utf8.encode text) =
      if text.getLast? = some '/' then text else text ++ ['/'] := by
  rw [directoryMarker, Utf8.decodeLossy_encode]

/-- The marker of a directory spells the directory exactly if this is a text. -/
theorem encode_directoryMarker_eq_iff (directory : Path) :
    Utf8.encode (directoryMarker directory) = Path.asDirectory directory ↔
      (Utf8.decode? directory).isSome = true := by
  constructor
  · intro same
    rcases exists_directoryMarker_eq directory with ⟨front, marker⟩
    rw [Option.isSome_iff_exists]
    rw [Path.asDirectory] at same
    split at same
    · exact ⟨_, Utf8.decode?_eq_some_iff.mpr same⟩
    · rw [marker, Utf8.encode_append] at same
      exact ⟨front, Utf8.decode?_eq_some_iff.mpr (List.append_cancel_right same)⟩
  · intro read
    rcases Option.isSome_iff_exists.mp read with ⟨text, read⟩
    rw [← Utf8.decode?_eq_some_iff.mp read, directoryMarker_encode, Path.asDirectory]
    by_cases ends : text.getLast? = some '/'
    · rw [if_pos ends, if_pos (Path.endsInSlash_encode ends)]
    · rw [if_neg ends, if_neg (mt Path.getLast?_of_endsInSlash_encode ends),
        Utf8.encode_append]
      rfl

end Variables

/-! ## From an argument to the first path -/

theorem PathRule.candidate_marker (rule : PathRule) (directory : Path) {argument : Path}
    (relative : Path.isAbsolute argument = false) :
    rule.candidate (Utf8.encode (Variables.directoryMarker directory)) argument =
      Utf8.encode (Variables.directoryMarker directory) ++ argument := by
  have ends := Path.endsInSlash_encode (Variables.getLast?_directoryMarker directory)
  rw [rule.candidate_eq_join ends, Path.join, relative, ends, Bool.or_true,
    if_neg Bool.false_ne_true, if_pos rfl]

theorem Lookup.head?_asked (files : FileView) (path : Path) (paths : List Path) :
    (first files (path :: paths)).asked.head? = some path := by
  rw [first]
  split <;> rfl

/-- The answers about a file that is there and can be read. -/
structure FileView.HasFile (files : FileView) (path : Path) (contents : Bytes) : Prop where
  present : files.isPresent path = true
  readable : files.isReadable path = true
  notDirectory : files.isDirectory path = false
  read : files.read path = .ok contents

/-- There is nothing but the file of the only record. -/
theorem FileView.isPresent_ofRecords_singleton {record : FileRecord} {path : Path}
    (different : path ≠ record.path) : (ofRecords [record]).isPresent path = false := by
  have absent : record? [record] path = none := by
    have mismatch : (record.path == path) = false := beq_eq_false_iff_ne.mpr (Ne.symm different)
    rw [record?, List.find?_singleton, mismatch]
    rfl
  simp only [ofRecords, absent, Option.map_none, Option.getD_none]

namespace Concatenation

variable {rule : PathRule} {files : FileView} {directory argument : Text} {path : Path}

theorem location?_of_first (given : argument ≠ [])
    (first : rule.candidate (Utf8.encode directory) (Utf8.encode argument) = path)
    (present : files.isPresent path = true) :
    location? rule files directory argument = some path := by
  rw [location?, if_neg given, first, List.find?_cons_of_pos present]

theorem location?_of_absent
    (absent : files.isPresent
      (rule.candidate (Utf8.encode directory) (Utf8.encode argument)) = false)
    (absentDirectly : files.isPresent (Utf8.encode argument) = false) :
    location? rule files directory argument = none := by
  rw [location?]
  split
  · rfl
  · rw [List.find?_cons_of_neg (Bool.eq_false_iff.mp absent),
      List.find?_cons_of_neg (Bool.eq_false_iff.mp absentDirectly), List.find?_nil]

theorem Outcome.of_hasFile {contents : Bytes} (has : files.HasFile path contents)
    (located : location? rule files directory argument = some path) :
    Outcome.of rule files directory argument = ⟨argument, .ok contents⟩ := by
  rw [Outcome.of, located]
  simp only [has.readable, has.notDirectory, has.read, Bool.true_eq_false, Bool.false_eq_true,
    if_false]

theorem Outcome.of_missing (located : location? rule files directory argument = none) :
    Outcome.of rule files directory argument =
      ⟨argument, .error "No such file or directory".toList⟩ := by
  rw [Outcome.of, located]

end Concatenation

/-! ## A session in a directory -/

namespace Session

open Concatenation

variable {directory : Path} {session : Session} {argument line : Text}

/-- The path at which an argument is looked for first. -/
def firstAsked (session : Session) (files : FileView) (argument : Text) :
    Except ShellError (Option Path) :=
  (Lookup.inVariables session.rule files session.scope argument).map fun lookup =>
    lookup.asked.head?

theorem firstAsked_eq
    (tracked : session.scope.directory = .ok (Variables.directoryMarker directory))
    (files : FileView) (given : argument ≠ [])
    (relative : Path.isAbsolute (Utf8.encode argument) = false) :
    session.firstAsked files argument =
      .ok (some (Utf8.encode (Variables.directoryMarker directory) ++ Utf8.encode argument)) := by
  have notEmpty : argument.isEmpty = false := List.isEmpty_eq_false_iff.mpr given
  rw [firstAsked, Lookup.inVariables, tracked, ← session.rule.candidate_marker directory relative]
  simp only [Except.map, Lookup.ofArgument, PathRule.places, notEmpty, Bool.false_eq_true,
    if_false, Lookup.head?_asked]

/-- The path at which an argument is looked for first lies in the directory that was asked for
exactly if this is a text. -/
theorem firstAsked_eq_iff
    (tracked : session.scope.directory = .ok (Variables.directoryMarker directory))
    (files : FileView) (given : argument ≠ [])
    (relative : Path.isAbsolute (Utf8.encode argument) = false) :
    session.firstAsked files argument =
        .ok (some (Path.asDirectory directory ++ Utf8.encode argument)) ↔
      (Utf8.decode? directory).isSome = true := by
  rw [firstAsked_eq tracked files given relative, Except.ok.injEq, Option.some.injEq,
    List.append_left_inj, Variables.encode_directoryMarker_eq_iff]

/-- A file at the first path is printed. -/
theorem leaves_of_hasFile {files : FileView} {contents : Bytes}
    (tracked : session.scope.get? Variables.directoryName =
      some (Variables.directoryMarker directory))
    (words : Words.split line = some [Concatenation.name, argument]) (given : argument ≠ [])
    (relative : Path.isAbsolute (Utf8.encode argument) = false)
    (has : files.HasFile
      (Utf8.encode (Variables.directoryMarker directory) ++ Utf8.encode argument) contents)
    (input : Source) :
    (session.execute files line { input := input }).Leaves [⟨argument, .ok contents⟩] := by
  have located := location?_of_first given (session.rule.candidate_marker directory relative)
    has.present
  have leaves := leaves_execute words (List.cons_ne_nil argument []) tracked files input
  rw [List.map_singleton, Outcome.of_hasFile has located] at leaves
  exact leaves

/-- Where there is neither a file at the first path nor one at the argument itself, the
argument is missing. -/
theorem leaves_of_absent {files : FileView}
    (tracked : session.scope.get? Variables.directoryName =
      some (Variables.directoryMarker directory))
    (words : Words.split line = some [Concatenation.name, argument])
    (relative : Path.isAbsolute (Utf8.encode argument) = false)
    (absent : files.isPresent
      (Utf8.encode (Variables.directoryMarker directory) ++ Utf8.encode argument) = false)
    (absentDirectly : files.isPresent (Utf8.encode argument) = false) (input : Source) :
    (session.execute files line { input := input }).Leaves
      [⟨argument, .error "No such file or directory".toList⟩] := by
  rw [← session.rule.candidate_marker directory relative] at absent
  have located := location?_of_absent absent absentDirectly
  have leaves := leaves_execute words (List.cons_ne_nil argument []) tracked files input
  rw [List.map_singleton, Outcome.of_missing located] at leaves
  exact leaves

/-- In a directory that is no text, a file of the directory is missing. -/
theorem leaves_of_not_text
    (tracked : session.scope.get? Variables.directoryName =
      some (Variables.directoryMarker directory))
    (words : Words.split line = some [Concatenation.name, argument])
    (relative : Path.isAbsolute (Utf8.encode argument) = false)
    (notText : (Utf8.decode? directory).isSome = false) (contents : Bytes) (input : Source) :
    (session.execute
      (.ofRecords [{ path := Path.asDirectory directory ++ Utf8.encode argument
                     contents := .ok contents }]) line { input := input }).Leaves
      [⟨argument, .error "No such file or directory".toList⟩] := by
  apply leaves_of_absent tracked words relative
  · apply FileView.isPresent_ofRecords_singleton
    intro same
    have spelled := (Variables.encode_directoryMarker_eq_iff directory).mp
      (List.append_cancel_right same)
    rw [notText] at spelled
    cases spelled
  · apply FileView.isPresent_ofRecords_singleton
    intro same
    exact Path.asDirectory_ne_nil directory (List.self_eq_append_left.mp same)

/-- Where a session that was started in a directory looks for a relative argument, at any
point and under either rule.  The first path is the directory, a slash if there is none at its
end, and the argument, byte for byte, exactly if the directory is a text.  In this case a file
that lies there is the one that is printed.  Otherwise the file is missing, even if it is the
only file that there is. -/
theorem tracks_directory_iff (rule : PathRule) (directory : Path) (steps : List Step)
    (files : FileView) {argument : Text} (given : argument ≠ [])
    (relative : Path.isAbsolute (Utf8.encode argument) = false) :
    let session := (start rule directory).after steps
    let wanted := Path.asDirectory directory ++ Utf8.encode argument
    (session.firstAsked files argument = .ok (some wanted) ↔
      (Utf8.decode? directory).isSome = true) ∧
    forall line, Words.Renders ["cat".toList, argument] line -> forall input contents,
      ((Utf8.decode? directory).isSome = true -> files.HasFile wanted contents ->
        let round := session.execute files line { input := input }
        round.result = .ok (.next 0) ∧
          round.streams.output.stored = contents ++ [Source.newline] ∧
          round.streams.error.stored = []) ∧
      ((Utf8.decode? directory).isSome = false ->
        let round := session.execute (.ofRecords [{ path := wanted, contents := .ok contents }])
          line { input := input }
        round.result = .ok (.next 1) ∧ round.streams.output.stored = [] ∧
          round.streams.error.stored =
            Utf8.encode (argument ++ ": No such file or directory\n".toList)) := by
  intro session wanted
  have holds := holds_after rule directory steps
  refine ⟨firstAsked_eq_iff holds.directory_eq files given relative, ?_⟩
  intro line written input contents
  have words := Words.split_of_renders written
  constructor
  · intro text has
    have spelled := (Variables.encode_directoryMarker_eq_iff directory).mpr text
    have atFirst : files.HasFile
        (Utf8.encode (Variables.directoryMarker directory) ++ Utf8.encode argument) contents := by
      rw [spelled]
      exact has
    have leaves := leaves_of_hasFile holds.directory words given relative atFirst input
    exact ⟨leaves.result, leaves.output.trans (List.append_nil _), leaves.error⟩
  · intro notText
    have leaves := leaves_of_not_text holds.directory words relative notText contents input
    have said : [(⟨argument, .error "No such file or directory".toList⟩ : Outcome)].flatMap
        Outcome.diagnostic = argument ++ ": No such file or directory\n".toList := by
      rw [List.flatMap_singleton, Outcome.diagnostic]
      simp only [List.append_assoc]
      rfl
    exact ⟨leaves.result, leaves.output, leaves.error.trans (congrArg Utf8.encode said)⟩

/-- A file with a name of two letters, in a directory whose name is no ASCII. -/
theorem tracks_directory_beyond_ascii :
    let directory := Utf8.encode "/caf\u00e9".toList
    let wanted := Utf8.encode "/caf\u00e9/ab".toList
    let files : FileView :=
      .ofRecords [{ path := wanted, contents := .ok (Utf8.encode "hi".toList) }]
    let session := (start .replaceFinal directory).after []
    let round := session.execute files "cat ab".toList {}
    "ab".toList ≠ [] ∧ Path.isAbsolute (Utf8.encode "ab".toList) = false ∧
      (Utf8.decode? directory).isSome = true ∧
      files.HasFile wanted (Utf8.encode "hi".toList) ∧
      Words.Renders ["cat".toList, "ab".toList] "cat ab".toList ∧
      session.firstAsked files "ab".toList = .ok (some wanted) ∧
      round.result = .ok (.next 0) ∧
      round.streams.output.stored = Utf8.encode "hi\n".toList ∧
      round.streams.error.stored = [] := by
  intro directory wanted files session round
  have cat : Words.Spelling "cat".toList "cat".toList :=
    Words.spelling_self (by decide) (by decide) (by decide)
  have ab : Words.Spelling "ab".toList "ab".toList :=
    Words.spelling_self (by decide) (by decide) (by decide)
  have written : Words.Renders ["cat".toList, "ab".toList] "cat ab".toList :=
    .cons .nil cat rfl (.last .nil ab)
  have text : (Utf8.decode? directory).isSome = true := by
    rw [Utf8.decode?_encode]
    rfl
  have has : files.HasFile wanted (Utf8.encode "hi".toList) :=
    ⟨by decide, by decide, by decide, by rfl⟩
  have known := tracks_directory_iff .replaceFinal directory [] files
    (show "ab".toList ≠ [] by decide)
    (show Path.isAbsolute (Utf8.encode "ab".toList) = false by decide)
  exact ⟨by decide, by decide, text, has, written, known.1.mpr text,
    (known.2 _ written {} _).1 text has⟩

/-- The file that was asked for is there, but the directory is no text, and another path is
looked at. -/
theorem directory_without_text_is_missed :
    let directory : Path := [0x64, 0xFF]
    let wanted : Path := [0x64, 0xFF, 0x2F, 0x66]
    let files : FileView :=
      .ofRecords [{ path := wanted, contents := .ok (Utf8.encode ['x']) }]
    let session := start .replaceFinal directory
    let round := session.execute files "cat f".toList {}
    files.HasFile wanted (Utf8.encode ['x']) ∧
      session.firstAsked files ['f'] ≠ .ok (some wanted) ∧
      round.result = .ok (.next 1) ∧ round.streams.output.stored = [] := by
  intro directory wanted files session round
  have has : files.HasFile wanted (Utf8.encode ['x']) :=
    ⟨by decide, by decide, by decide, by rfl⟩
  have notText : (Utf8.decode? directory).isSome = false := by
    have first : Utf8.next 0x64 [0xFF] = (some 'd', [0xFF]) := by decide
    have second : Utf8.next 0xFF [] = (none, []) := by decide
    rw [Utf8.decode?, Utf8.scan_cons, first, Utf8.scan_cons, second]
    rfl
  have holds := Variables.holds_tracking directory
  have relative : Path.isAbsolute (Utf8.encode ['f']) = false := by decide
  have words : Words.split "cat f".toList = some [Concatenation.name, ['f']] := by decide
  have leaves : round.Leaves _ :=
    leaves_of_not_text holds.directory words relative notText (Utf8.encode ['x']) {}
  have there := @firstAsked_eq_iff directory session ['f'] holds.directory_eq files
    (List.cons_ne_nil _ _) relative
  refine ⟨has, ?_, leaves.result, leaves.output⟩
  intro same
  have text := there.mp same
  rw [notText] at text
  cases text

end Session
end MiniShell
