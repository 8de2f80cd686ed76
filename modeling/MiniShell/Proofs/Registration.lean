import MiniShell.Proofs.Rendering
import MiniShell.Proofs.WordCompletion

namespace MiniShell

/-!
# Registering more commands

A registry can be extended, by commands that do anything and have any names.
Nobody who uses the commands that were there before can notice.  Looking up a name
is the only way in which a registry is used, and what is found in the extended
registry is what is found in the old one, or else in the added commands.  So
a line is carried out as before, unless its first word was unknown.

A command whose name was there before is never found.  It leaves a trace in the
list of names, where its name comes up once more, and a completer is made from
this list.  Its candidates depend on nothing but which names are in the list.
-/

namespace Registry

/-! ## What is found -/

/-- Register one command after the other. -/
def registerAll (registry : Registry) (added : List Command) : Registry :=
  added.foldl register registry

/-- If the line has a first word, it is a name of the registry. -/
def Knows (registry : Registry) (line : Text) : Prop :=
  forall name arguments, Words.split line = some (name :: arguments) ->
    registry.contains name = true

variable {registry : Registry} {added : List Command}

theorem commands_registerAll (registry : Registry) (added : List Command) :
    (registry.registerAll added).commands = registry.commands ++ added := by
  induction added generalizing registry with
  | nil => exact (List.append_nil _).symm
  | cons command added ih =>
      have later := ih (registry.register command)
      rw [register, List.append_assoc] at later
      exact later

theorem names_registerAll (registry : Registry) (added : List Command) :
    (registry.registerAll added).names = registry.names ++ added.map fun command => command.name := by
  rw [names, commands_registerAll, List.map_append]
  rfl

/-- The added commands are asked only if there is no command of the name. -/
theorem find?_registerAll (registry : Registry) (added : List Command) (name : Text) :
    (registry.registerAll added).find? name =
      (registry.find? name).or ((registerAll {} added).find? name) := by
  simp only [find?, commands_registerAll, List.find?_append, List.nil_append]

theorem find?_registerAll_of_contains {name : Text} (known : registry.contains name = true)
    (added : List Command) : (registry.registerAll added).find? name = registry.find? name := by
  rcases Option.isSome_iff_exists.mp known with ⟨command, found⟩
  rw [find?_registerAll, found]
  rfl

theorem find?_eq_none_of_not_contains {name : Text} (unknown : registry.contains name = false) :
    registry.find? name = none :=
  Option.isNone_iff_eq_none.mp (Option.isSome_eq_false_iff.mp unknown)

theorem find?_registerAll_of_not_contains {name : Text} (unknown : registry.contains name = false)
    (added : List Command) :
    (registry.registerAll added).find? name = (registerAll {} added).find? name := by
  rw [find?_registerAll, find?_eq_none_of_not_contains unknown]
  rfl

theorem mem_names_iff {name : Text} : name ∈ registry.names ↔ registry.contains name = true := by
  rw [contains, find?, List.find?_isSome]
  simp only [names, List.mem_map, beq_iff_eq]

/-! ## Lines -/

/-- For a line a registry is nothing but what it finds for the first word. -/
theorem handle_eq_of_find? {first second : Registry} {line : Text}
    (same : forall name arguments, Words.split line = some (name :: arguments) ->
      first.find? name = second.find? name) (scope : Variables) :
    first.handle line scope = second.handle line scope := by
  apply handle_congr
  · intro name arguments words
    rw [exitCode?, exitCode?, same name arguments words]
  · intro name arguments words
    rw [run?, run?, same name arguments words]

theorem handle_of_not_contains {line name : Text} {arguments : List Text}
    (words : Words.split line = some (name :: arguments))
    (unknown : registry.contains name = false) (scope : Variables) :
    registry.handle line scope =
      throw (.commandNotFound (name ++ ": command not found".toList)) := by
  have nothing := find?_eq_none_of_not_contains unknown
  simp only [handle, words, exitCode?, run?, nothing, Option.bind_none, Option.map_none]

/-- A line whose first word is known is carried out as before. -/
theorem handle_registerAll {line : Text} (known : registry.Knows line) (added : List Command)
    (scope : Variables) :
    (registry.registerAll added).handle line scope = registry.handle line scope := by
  apply handle_eq_of_find?
  intro name arguments words
  exact find?_registerAll_of_contains (known name arguments words) added

/-- A line whose first word was unknown is carried out by the added commands alone. -/
theorem handle_registerAll_of_not_contains {line name : Text} {arguments : List Text}
    (words : Words.split line = some (name :: arguments))
    (unknown : registry.contains name = false) (added : List Command) (scope : Variables) :
    (registry.registerAll added).handle line scope =
      (registerAll {} added).handle line scope := by
  apply handle_eq_of_find?
  intro other others words'
  cases words.symm.trans words'
  exact find?_registerAll_of_not_contains unknown added

/-- If the shell does not say that the first word is unknown, then it is known. -/
theorem knows_of_handle {line : Text} {scope : Variables} {streams : Streams}
    (other : forall name arguments, Words.split line = some (name :: arguments) ->
      registry.handle line scope streams ≠
        .error (.commandNotFound (name ++ ": command not found".toList)) streams) :
    registry.Knows line := by
  intro name arguments words
  apply Bool.of_not_eq_false
  intro unknown
  apply other name arguments words
  rw [handle_of_not_contains words unknown]
  rfl

/-! ## Hidden commands -/

/-- Every command has the name of one that is in the registry. -/
def Hides (registry : Registry) (added : List Command) : Prop :=
  forall command, command ∈ added -> registry.contains command.name = true

theorem find?_registerAll_of_hides (hides : registry.Hides added) (name : Text) :
    (registry.registerAll added).find? name = registry.find? name := by
  cases known : registry.contains name with
  | true => exact find?_registerAll_of_contains known added
  | false =>
      rw [find?_registerAll_of_not_contains known, find?_eq_none_of_not_contains known, find?,
        commands_registerAll, List.find?_eq_none]
      intro command member same
      have contained := hides command member
      rw [beq_iff_eq.mp same, known] at contained
      cases contained

theorem mem_names_registerAll (hides : registry.Hides added) (name : Text) :
    name ∈ (registry.registerAll added).names ↔ name ∈ registry.names := by
  rw [mem_names_iff, mem_names_iff, contains, contains, find?_registerAll_of_hides hides]

end Registry

/-! ## Completing with more names -/

namespace Completion

/-- What is offered at a position of a line: where the completed word starts, and the
candidates.  There is no answer if no cursor can stand there. -/
def answer (commands : List Text) (listing : Option (List Entry)) (line : Text)
    (position : Nat) : Option (Nat × List Candidate) :=
  (Cursor.at? line position).map fun cursor =>
    (cursor.start, candidates commands listing cursor)

/-- Command names count as a set, whatever is listed. -/
theorem candidates_eq_of_same_commands {commands commands' : List Text}
    (same : forall name, name ∈ commands ↔ name ∈ commands')
    (listing : Option (List Entry)) (cursor : Cursor) :
    candidates commands listing cursor = candidates commands' listing cursor := by
  cases position : cursor.before.all Blank.isBlank with
  | true =>
      -- The listing, in which a name may come up twice, is not looked at.
      have unlisted : forall names, candidates names listing cursor =
          candidates names none cursor := by
        intro names
        simp only [candidates, position, if_true]
      rw [unlisted, unlisted]
      apply candidates_eq_of_same_members
      · intro first listed
        cases listed
      · exact same
      · intro entry
        exact Iff.rfl
  | false => simp only [candidates, position, Bool.false_eq_true, if_false]

theorem answer_eq_of_same_commands {commands commands' : List Text}
    (same : forall name, name ∈ commands ↔ name ∈ commands') :
    answer commands = answer commands' := by
  funext listing line position
  apply Option.map_congr
  intro cursor _
  rw [candidates_eq_of_same_commands same]

end Completion

namespace Registry

/-! ## Extending a registry -/

/-- There is no name, no line and no position at which two registries could be told apart. -/
structure Agree (first second : Registry) : Prop where
  find? : forall name, first.find? name = second.find? name
  contains : forall name, first.contains name = second.contains name
  exitCode? : forall name arguments, first.exitCode? name arguments = second.exitCode? name arguments
  run? : forall name arguments scope,
    first.run? name arguments scope = second.run? name arguments scope
  handle : forall line scope, first.handle line scope = second.handle line scope
  answer : forall listing line position,
    Completion.answer first.names listing line position =
      Completion.answer second.names listing line position

theorem agree_registerAll {registry : Registry} {added : List Command}
    (hides : registry.Hides added) : Agree (registry.registerAll added) registry where
  find? := find?_registerAll_of_hides hides
  contains name := by
    rw [Registry.contains, Registry.contains, find?_registerAll_of_hides hides]
  exitCode? name arguments := by
    rw [Registry.exitCode?, Registry.exitCode?, find?_registerAll_of_hides hides]
  run? name arguments scope := by
    rw [Registry.run?, Registry.run?, find?_registerAll_of_hides hides]
  handle line scope := by
    apply handle_eq_of_find?
    intro name arguments _
    exact find?_registerAll_of_hides hides name
  answer listing line position := by
    rw [Completion.answer_eq_of_same_commands (mem_names_registerAll hides)]

/-- What registering more commands does to a registry that was made by registering commands.
A line is carried out as before over any variables and streams, unless the shell said that it
does not know the first word, and this is so for every line whose first word is known.  A line
with an unknown first word is left to the added commands alone.  If all added names were there
before, then no more changes than the list of names, and the candidates at any position of any
line stay as they are. -/
theorem registration_is_conservative (built added : List Command) :
    let registry := registerAll {} built
    let extended := registry.registerAll added
    (forall line scope streams,
      (forall name arguments, Words.split line = some (name :: arguments) ->
        registry.handle line scope streams ≠
          .error (.commandNotFound (name ++ ": command not found".toList)) streams) ->
      extended.handle line scope streams = registry.handle line scope streams) ∧
    (forall line scope, registry.Knows line ->
      extended.handle line scope = registry.handle line scope) ∧
    (forall line scope name arguments, Words.split line = some (name :: arguments) ->
      registry.contains name = false ->
      registry.handle line scope =
          throw (.commandNotFound (name ++ ": command not found".toList)) ∧
        extended.handle line scope = (registerAll {} added).handle line scope) ∧
    extended.names = registry.names ++ added.map (fun command => command.name) ∧
    (registry.Hides added -> extended.Agree registry) := by
  intro registry extended
  refine ⟨?_, ?_, ?_, names_registerAll registry added, agree_registerAll⟩
  · intro line scope streams other
    have same := handle_registerAll (knows_of_handle other) added scope
    exact congrFun same streams
  · intro line scope known
    exact handle_registerAll known added scope
  · intro line scope name arguments words unknown
    constructor
    · exact handle_of_not_contains words unknown scope
    · exact handle_registerAll_of_not_contains words unknown added scope

/-- A second `echo` that would end the shell is never reached, and only its name is there
twice. -/
theorem hidden_echo_is_never_reached :
    let again : Command :=
      { name := "echo".toList
        description := []
        run := fun _ _ => pure 7
        exitCode? := fun _ => some 3 }
    let registry := registerAll {} [Builtin.echo, Builtin.pwd]
    let extended := registry.registerAll [again]
    registry.Hides [again] ∧ registry.Knows "echo a".toList ∧
      extended.names = ["echo".toList, "pwd".toList, "echo".toList] ∧
      extended.handle "echo a".toList {} {} =
        .ok (.next 0) { output := { stored := Utf8.encode "a\n".toList } } ∧
      Completion.answer extended.names none "e".toList 1 =
        Completion.answer registry.names none "e".toList 1 := by
  intro again registry extended
  have conservative := registration_is_conservative [Builtin.echo, Builtin.pwd] [again]
  have known : registry.Knows "echo a".toList := by
    intro name arguments words
    have first : Words.split "echo a".toList = some ["echo".toList, "a".toList] := by decide
    rw [first] at words
    cases words
    rfl
  have hides : registry.Hides [again] := by
    intro command member
    rw [List.mem_singleton.mp member]
    rfl
  have carriedOut : registry.handle "echo a".toList {} {} =
      .ok (.next 0) { output := { stored := Utf8.encode "a\n".toList } } := by rfl
  refine ⟨hides, known, conservative.2.2.2.1, ?_, ?_⟩
  · rw [conservative.2.1 _ {} known]
    exact carriedOut
  · exact (conservative.2.2.2.2 hides).answer none "e".toList 1

end Registry
end MiniShell
