import Mathlib.Data.List.Find
import MiniShell.Proofs.PathRuleIndependence
import MiniShell.Proofs.Transcript

namespace MiniShell

/-!
# The paths that a run may ask about

Before a run its lines can be read, although it is not known which of them will be
carried out.  Their words and the tracked directory give the paths about which the run
may ask.  It is shown that it asks about no others: files may be anything that they are
not asked about.

For one line this is so because an argument is only looked for at its places, and read
where it was found.  No line changes the paths of the next one, as the tracked directory
stays, and so induction on the lines of the input takes care of the whole run.

The directory of the process is one more thing that is only asked for if it is needed.
-/

/-! ## Views that agree -/

/-- The two views have the same answers about these paths. -/
structure FileView.AgreeOn (paths : List Path) (first second : FileView) : Prop where
  isPresent : forall path, path ∈ paths -> first.isPresent path = second.isPresent path
  isReadable : forall path, path ∈ paths -> first.isReadable path = second.isReadable path
  isDirectory : forall path, path ∈ paths -> first.isDirectory path = second.isDirectory path
  read : forall path, path ∈ paths -> first.read path = second.read path

variable {files other : FileView} {rule : PathRule} {directory : Text}

theorem FileView.AgreeOn.mono {paths more : List Path} (agree : AgreeOn more files other)
    (subset : paths ⊆ more) : AgreeOn paths files other where
  isPresent path member := agree.isPresent path (subset member)
  isReadable path member := agree.isReadable path (subset member)
  isDirectory path member := agree.isDirectory path (subset member)
  read path member := agree.read path (subset member)

theorem FileView.AgreeOn.of_mem_flatMap {α : Type} {paths : α -> List Path} {items : List α}
    (agree : AgreeOn (items.flatMap paths) files other) {item : α} (member : item ∈ items) :
    AgreeOn (paths item) files other :=
  agree.mono fun _ asked => List.mem_flatMap.mpr ⟨item, member, asked⟩

/-! ## One line -/

namespace Concatenation

/-- How an argument is read is settled at its places. -/
theorem readArgument_congr {argument : Text}
    (agree : FileView.AgreeOn (rule.places directory argument) files other) :
    readArgument rule files directory argument = readArgument rule other directory argument := by
  have sameFound : (Lookup.ofArgument rule files directory argument).found =
      (Lookup.ofArgument rule other directory argument).found := by
    rw [Lookup.ofArgument, Lookup.ofArgument, found_first, found_first]
    exact List.find?_congr agree.isPresent
  rw [readArgument, readArgument, ← sameFound]
  cases found : (Lookup.ofArgument rule files directory argument).found with
  | none => rfl
  | some path =>
      have asked : path ∈ rule.places directory argument := by
        rw [Lookup.ofArgument, found_first] at found
        exact List.mem_of_find?_eq_some found
      dsimp only
      rw [readPath, readPath, agree.isReadable path asked, agree.isDirectory path asked,
        agree.read path asked]

theorem tally_congr {arguments : List Text}
    (agree : FileView.AgreeOn (arguments.flatMap (rule.places directory)) files other) :
    tally rule files directory arguments = tally rule other directory arguments := by
  rw [tally, tally]
  apply List.foldl_ext
  intro tally argument member
  rw [readArgument_congr (agree.of_mem_flatMap member)]

theorem run_command_congr {arguments : List Text} {scope : Variables}
    (agree : forall directory, scope.directory = .ok directory ->
      FileView.AgreeOn (arguments.flatMap (rule.places directory)) files other) :
    (command rule files).run arguments scope = (command rule other).run arguments scope := by
  have same : concatenate rule files arguments scope = concatenate rule other arguments scope := by
    cases tracked : scope.directory with
    | error error =>
        rw [concatenate, concatenate, tracked]
        rfl
    | ok directory =>
        have run : forall files, concatenate rule files arguments scope =
            report arguments.length (tally rule files directory arguments) := by
          intro files
          rw [concatenate, tracked]
          rfl
        rw [run, run, tally_congr (agree directory tracked)]
  simp only [command, same]

end Concatenation

namespace Session

variable {session : Session} {line : Text}

/-- A line is carried out alike over files that cannot be told apart at its paths. -/
theorem execute_congr (agree : FileView.AgreeOn (session.paths line) files other)
    (streams : Streams) :
    session.execute files line streams = session.execute other line streams := by
  have handled : (session.registry files).handle line session.scope =
      (session.registry other).handle line session.scope := by
    apply Builtin.handle_registry_congr
    intro arguments words
    apply Concatenation.run_command_congr
    intro directory tracked
    rw [paths, words, tracked] at agree
    exact agree
  have attempted : session.attempt files line = session.attempt other line := by
    rw [attempt, attempt, handled]
  rw [execute, execute, attempted]

theorem paths_eq_of_setting {other : Session} (same : session.setting = other.setting) :
    session.paths = other.paths := by
  have sameRule : session.rule = other.rule := congrArg Prod.fst same
  have sameDirectory : session.scope.directory = other.scope.directory := congrArg Prod.snd same
  funext line
  rw [paths, paths, sameRule, sameDirectory]

end Session

/-! ## A whole run -/

theorem Options.session?_of_directory {options : Options} {directory : Path}
    (given : options.directory = some directory) (current : Except Fault Path) :
    options.session? current = .ok (Session.start options.rule directory) := by
  cases current <;> simp only [session?, session, given, Option.getD_some]

namespace Interaction

open Session

/-- The lines that are meant by what is typed, if all of them are reached. -/
def meantLines (lines : List Bytes) : List Text :=
  lines.filterMap fun line => (Utf8.decode? line).bind edited?

theorem transcript_congr {session : Session} {lines : List Bytes}
    (agree : FileView.AgreeOn ((meantLines lines).flatMap session.paths) files other) :
    transcript files edited? session lines = transcript other edited? session lines := by
  induction lines generalizing session with
  | nil => rfl
  | cons bytes later ih =>
      rw [transcript, transcript]
      cases decoded : Utf8.decode? bytes with
      | none => rfl
      | some typed =>
          dsimp only
          cases meant : edited? typed with
          | none => rfl
          | some line =>
              have meantFirst : (Utf8.decode? bytes).bind edited? = some line := by
                rw [decoded]
                exact meant
              have same : meantLines (bytes :: later) = line :: meantLines later :=
                List.filterMap_cons_some meantFirst
              rw [same] at agree
              have now := execute_congr (agree.of_mem_flatMap List.mem_cons_self)
                { input := { pending := later.flatten } }
              dsimp only
              rw [now]
              cases Bearing.of line with
              | asksForEnd code => rfl
              | copiesRest => rfl
              | leavesRest =>
                  have kept := paths_eq_of_setting (setting_execute session other line
                    { input := { pending := later.flatten } })
                  have rest : (meantLines later).flatMap session.paths ⊆
                      (line :: meantLines later).flatMap session.paths :=
                    List.subset_append_right _ _
                  dsimp only
                  rw [ih (kept ▸ agree.mono rest)]

end Interaction

namespace Program

/-- The files that a run is given matter at no other paths than those of its lines.  These paths
are told by the arguments, the environment, the directory and the input alone. -/
theorem run_eq_of_agree {surroundings : Surroundings} (other : FileView)
    (agree : FileView.AgreeOn (paths surroundings) surroundings.files other) :
    run surroundings = run { surroundings with files := other } := by
  rw [paths] at agree
  rw [run, run]
  cases given : Options.parse surroundings.arguments surroundings.environment with
  | error error => rfl
  | ok options =>
      rw [given] at agree
      dsimp only at agree ⊢
      cases begins : options.session? surroundings.directory with
      | error error => rfl
      | ok session =>
          rw [begins] at agree
          dsimp only [lines] at agree ⊢
          cases oneShot : options.command with
          | some line =>
              rw [oneShot] at agree
              have now := Session.execute_congr (agree.of_mem_flatMap List.mem_cons_self)
                { input := { pending := surroundings.input } }
              dsimp only [runLine]
              rw [now]
          | none =>
              rw [oneShot] at agree
              have empty : ({} : Sink).Unfailing := ⟨rfl, rfl⟩
              dsimp only
              rw [Interaction.run_eq_following _ session 0 rfl empty empty,
                Interaction.run_eq_following _ session 0 rfl empty empty,
                Interaction.transcript_congr agree]

/-- The directory of the process is not asked for if the options give one. -/
theorem run_eq_of_directory {surroundings : Surroundings} {options : Options} {directory : Path}
    (parsed : Options.parse surroundings.arguments surroundings.environment = .ok options)
    (given : options.directory = some directory) (current : Except Fault Path) :
    run surroundings = run { surroundings with directory := current } := by
  rw [run, run]
  dsimp only
  rw [parsed]
  dsimp only
  rw [Options.session?_of_directory given, Options.session?_of_directory given]

end Program
end MiniShell
