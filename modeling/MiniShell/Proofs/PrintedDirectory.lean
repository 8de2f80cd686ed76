import MiniShell.Proofs.Components
import MiniShell.Proofs.TrackedDirectory

namespace MiniShell

/-!
# The directory that is printed

The tracked directory is kept with a slash at its end and printed without one.
A text that is printed can be given to another shell as its directory.  It is
shown that nothing gets lost on the way: the other shell prints the same text,
and each of its arguments leads to the same components.

The spelling of the marker may change on the way, because all trailing slashes
are taken off and only one is put back.  What a marker is printed as is therefore
described by a relation between two texts, which determines the second one.
Where there is nothing but slashes, all of them stay.
-/

/-! ## Taking off trailing slashes -/

/-- The second text is the first one without trailing slashes, unless there is nothing but
slashes. -/
inductive PrintedAs (marker : Text) : Text -> Prop where
  | slashes (only : forall c, c ∈ marker -> c = '/') : PrintedAs marker marker
  | path {printed : Text} (count : Nat) (nonempty : printed ≠ [])
      (noSlash : printed.getLast? ≠ some '/')
      (whole : marker = printed ++ List.replicate count '/') : PrintedAs marker printed

theorem PrintedAs.path_of_mem {marker printed : Text} (described : PrintedAs marker printed)
    {c : Char} (member : c ∈ marker) (different : c ≠ '/') :
    printed ≠ [] ∧ printed.getLast? ≠ some '/' ∧
      exists count, marker = printed ++ List.replicate count '/' := by
  cases described with
  | slashes only => exact absurd (only c member) different
  | path count nonempty noSlash whole => exact ⟨nonempty, noSlash, count, whole⟩

namespace Builtin

variable {marker printed : Text}

theorem printedDirectory_eq_ite (marker : Text) :
    printedDirectory marker =
      if marker.rdropWhile (· == '/') = [] then marker else marker.rdropWhile (· == '/') := by
  simp only [printedDirectory, List.isEmpty_iff]
  rfl

/-- What is taken off consists of slashes. -/
theorem exists_eq_rdropWhile_append (marker : Text) :
    exists count, marker = marker.rdropWhile (· == '/') ++ List.replicate count '/' := by
  have slashes : marker.rtakeWhile (· == '/') =
      List.replicate (marker.rtakeWhile (· == '/')).length '/' := by
    apply List.eq_replicate_of_mem
    intro c member
    have test := List.mem_rtakeWhile_imp member
    exact beq_iff_eq.mp test
  refine ⟨(marker.rtakeWhile (· == '/')).length, ?_⟩
  rw [← slashes]
  exact List.rdropWhile_append_rtakeWhile.symm

theorem printedAs_printedDirectory (marker : Text) :
    PrintedAs marker (printedDirectory marker) := by
  rw [printedDirectory_eq_ite]
  split
  · next nothing =>
      apply PrintedAs.slashes
      intro c member
      exact beq_iff_eq.mp (List.rdropWhile_eq_nil_iff.mp nothing c member)
  · next something =>
      rcases exists_eq_rdropWhile_append marker with ⟨count, whole⟩
      refine .path count something ?_ whole
      intro ends
      have stops := List.rdropWhile_last_not (· == '/') marker something
      apply stops
      rw [List.getLast?_eq_getLast_of_ne_nil something, Option.some.injEq] at ends
      exact beq_iff_eq.mpr ends

/-- No other slash is taken off. -/
theorem rdropWhile_append_slashes (noSlash : printed.getLast? ≠ some '/') (count : Nat) :
    (printed ++ List.replicate count '/').rdropWhile (· == '/') = printed := by
  induction count with
  | zero =>
      rw [List.replicate_zero, List.append_nil]
      apply List.rdropWhile_eq_self_iff.mpr
      intro nonempty test
      apply noSlash
      rw [List.getLast?_eq_getLast_of_ne_nil nonempty]
      exact congrArg some (beq_iff_eq.mp test)
  | succ count ih =>
      have last := List.rdropWhile_concat_pos (· == '/') (printed ++ List.replicate count '/')
        '/' (beq_self_eq_true '/')
      rw [List.replicate_succ', ← List.append_assoc, last]
      exact ih

/-- The relation describes what is printed, and nothing else stands in it. -/
theorem printedDirectory_eq_iff :
    printedDirectory marker = printed ↔ PrintedAs marker printed := by
  constructor
  · intro same
    rw [← same]
    exact printedAs_printedDirectory marker
  · intro described
    rw [printedDirectory_eq_ite]
    cases described with
    | slashes only =>
        apply if_pos
        apply List.rdropWhile_eq_nil_iff.mpr
        intro c member
        exact beq_iff_eq.mpr (only c member)
    | path count nonempty noSlash whole =>
        rw [whole, rdropWhile_append_slashes noSlash count]
        exact if_neg nonempty

example : printedDirectory "/srv//".toList = "/srv".toList := by decide

example : printedDirectory "//".toList = "//".toList := by decide

end Builtin

/-! ## Giving a text back as a directory -/

namespace Variables

/-- A marker is the marker of itself. -/
theorem directoryMarker_marker (directory : Path) :
    directoryMarker (Utf8.encode (directoryMarker directory)) = directoryMarker directory := by
  rw [directoryMarker_encode]
  exact if_pos (getLast?_directoryMarker directory)

theorem directory_tracking (directory : Path) :
    (tracking directory).directory = .ok (directoryMarker directory) :=
  (holds_tracking directory).directory_eq

end Variables

/-- What a marker is printed as is printed again. -/
theorem PrintedAs.again {marker printed : Text} (described : PrintedAs marker printed)
    (ends : marker.getLast? = some '/') :
    PrintedAs (Variables.directoryMarker (Utf8.encode printed)) printed := by
  rw [Variables.directoryMarker_encode]
  cases described with
  | slashes only =>
      rw [if_pos ends]
      exact .slashes only
  | path count nonempty noSlash whole =>
      rw [if_neg noSlash]
      exact .path 1 nonempty noSlash rfl

/-! ## The same components -/

namespace Path

theorem encode_replicate_slash (count : Nat) :
    Utf8.encode (List.replicate count '/') = List.replicate count slash := by
  induction count with
  | zero => rfl
  | succ count ih =>
      rw [List.replicate_succ, Utf8.encode_cons, ih]
      rfl

theorem inner_replicate_slash (count : Nat) : inner (List.replicate count slash) = [] := by
  induction count with
  | zero => rfl
  | succ count ih =>
      have cut := inner_append_slash [] (List.replicate count slash)
      rw [ih] at cut
      exact cut

/-- Trailing slashes of a path that does not consist of them give no components. -/
theorem components_append_slashes {path : Path} (nonempty : path ≠ []) (count : Nat) :
    components (path ++ List.replicate count slash) = components path := by
  cases count with
  | zero => rw [List.replicate_zero, List.append_nil]
  | succ count =>
      rw [List.replicate_succ, components_append_slash nonempty, inner_replicate_slash]
      exact List.append_nil _

end Path

theorem PrintedAs.components_eq {marker printed : Text} (described : PrintedAs marker printed) :
    Path.components (Utf8.encode marker) = Path.components (Utf8.encode printed) := by
  cases described with
  | slashes only => rfl
  | path count nonempty noSlash whole =>
      rw [whole, Utf8.encode_append, Path.encode_replicate_slash]
      exact Path.components_append_slashes (Utf8.encode_ne_nil nonempty) count

/-- Two directories with the same components, both of which end in a slash, lead every argument
to the same components. -/
theorem PathRule.components_candidate_congr (rule : PathRule) {first second : Path}
    (firstEnds : Path.endsInSlash first = true) (secondEnds : Path.endsInSlash second = true)
    (same : Path.components first = Path.components second) (argument : Path) :
    Path.components (rule.candidate first argument) =
      Path.components (rule.candidate second argument) := by
  rw [rule.candidate_eq_join firstEnds, rule.candidate_eq_join secondEnds]
  cases absolute : Path.isAbsolute argument with
  | true => rw [Path.join_of_isAbsolute absolute, Path.join_of_isAbsolute absolute]
  | false =>
      rw [Path.components_join_eq first absolute, Path.components_join_eq second absolute, same]

/-! ## The round trip -/

/-- Whatever the arguments and the streams are, the command does nothing but print one line. -/
def Command.Prints (command : Command) (scope : Variables) (text : Text) : Prop :=
  forall arguments, command.run arguments scope =
    (StreamM.writeOutput (Utf8.encode (text ++ ['\n'])) >>= fun _ => pure 0)

/-- The components of the path at which an argument is tried first. -/
def PathRule.reached (rule : PathRule) (scope : Variables) (argument : Path) :
    Except ShellError (List Component) :=
  scope.directory.map fun directory =>
    Path.components (rule.candidate (Utf8.encode directory) argument)

namespace Builtin

theorem prints_pwd {scope : Variables} {marker : Text} (tracked : scope.directory = .ok marker) :
    pwd.Prints scope (printedDirectory marker) := by
  intro arguments
  simp only [pwd, tracked]
  rfl

theorem reached_tracking (rule : PathRule) (directory argument : Path) :
    rule.reached (Variables.tracking directory) argument =
      .ok (Path.components
        (rule.candidate (Utf8.encode (Variables.directoryMarker directory)) argument)) := by
  rw [PathRule.reached, Variables.directory_tracking]
  rfl

/-- Arguments are looked for in the same places again, up to spelling. -/
theorem components_candidate_again (rule : PathRule) (directory argument : Path) :
    let marker := Variables.directoryMarker directory
    let again := Variables.directoryMarker (Utf8.encode (printedDirectory marker))
    Path.components (rule.candidate (Utf8.encode again) argument) =
      Path.components (rule.candidate (Utf8.encode marker) argument) := by
  intro marker again
  have ends : marker.getLast? = some '/' := Variables.getLast?_directoryMarker directory
  have endsAgain : again.getLast? = some '/' := Variables.getLast?_directoryMarker _
  have described : PrintedAs marker (printedDirectory marker) := printedAs_printedDirectory marker
  have same : Path.components (Utf8.encode again) = Path.components (Utf8.encode marker) := by
    calc Path.components (Utf8.encode again)
        = Path.components (Utf8.encode (printedDirectory marker)) :=
          (described.again ends).components_eq
      _ = Path.components (Utf8.encode marker) := described.components_eq.symm
  apply rule.components_candidate_congr
  · exact Path.endsInSlash_encode endsAgain
  · exact Path.endsInSlash_encode ends
  · exact same

/-- Every directory, whether its bytes are a text or not, has a marker that ends in a slash and
is its own marker.  It is printed without trailing slashes, unless it consists of slashes only.
A shell in the directory that was printed prints it again, and under either rule it looks for
every argument where the first shell does, up to spelling. -/
theorem printed_directory_round_trip (directory : Path) :
    let scope := Variables.tracking directory
    let marker := Variables.directoryMarker directory
    let printed := printedDirectory marker
    let again := Variables.tracking (Utf8.encode printed)
    (scope.directory = .ok marker ∧ marker.getLast? = some '/' ∧
      (Variables.tracking (Utf8.encode marker)).directory = .ok marker) ∧
    (pwd.Prints scope printed ∧
      ((forall c, c ∈ marker -> c = '/') -> printed = marker) ∧
      ((exists c, c ∈ marker ∧ c ≠ '/') ->
        printed ≠ [] ∧ printed.getLast? ≠ some '/' ∧
          exists count, marker = printed ++ List.replicate count '/')) ∧
    pwd.Prints again printed ∧
    forall (rule : PathRule) (argument : Path), exists components,
      rule.reached scope argument = .ok components ∧
        rule.reached again argument = .ok components := by
  intro scope marker printed again
  have ends : marker.getLast? = some '/' := Variables.getLast?_directoryMarker directory
  have described : PrintedAs marker printed := printedAs_printedDirectory marker
  refine ⟨⟨Variables.directory_tracking directory, ends, ?_⟩, ⟨?_, ?_, ?_⟩, ?_, ?_⟩
  · rw [Variables.directory_tracking, Variables.directoryMarker_marker]
  · exact prints_pwd (Variables.directory_tracking directory)
  · intro only
    exact printedDirectory_eq_iff.mpr (.slashes only)
  · rintro ⟨c, member, notSlash⟩
    exact described.path_of_mem member notSlash
  · have same := printedDirectory_eq_iff.mpr (described.again ends)
    have prints := prints_pwd (Variables.directory_tracking (Utf8.encode printed))
    rw [same] at prints
    exact prints
  · intro rule argument
    refine ⟨_, reached_tracking rule directory argument, ?_⟩
    rw [reached_tracking, components_candidate_again]

end Builtin
end MiniShell
