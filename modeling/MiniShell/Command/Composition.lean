import MiniShell.Command.Builtin

namespace MiniShell

/-!
# From the steps of a command to a line

The commands of the shell are put together from few steps: they write, they
flush, they copy the input, they ask for the tracked directory, and they fail.
A property of computations that every such step has, and that sequencing keeps,
is a property of every command, and of every line that is carried out by
commands which have it.  What is said of all lines then only has to be shown of
the steps.
-/

namespace StreamM

/-- The property is one of every step over the given variables, and sequencing keeps it. -/
structure Compositional (scope : Variables) (property : forall {α : Type}, StreamM α -> Prop) :
    Prop where
  value : forall {α : Type} (value : α), property (pure value)
  sequence : forall {α β : Type} {run : StreamM α} {next : α -> StreamM β}, property run ->
    (forall value, property (next value)) -> property (run >>= next)
  directory : property (lift scope.directory)
  write : forall channel bytes, property (write channel bytes)
  flush : forall channel, property (flush channel)
  copyLines : property Concatenation.copyLines
  fatal : forall diagnostics, property (throw (.fatal diagnostics) : StreamM Int)
  invalidQuoting : property (throw .invalidQuoting : StreamM Flow)
  commandNotFound : forall description,
    property (throw (.commandNotFound description) : StreamM Flow)

namespace Compositional

variable {scope : Variables} {property : forall {α : Type}, StreamM α -> Prop}

theorem showDiagnostics (steps : Compositional scope property) (diagnostics : Text) :
    property (Concatenation.showDiagnostics diagnostics) := by
  unfold Concatenation.showDiagnostics
  by_cases empty : diagnostics.isEmpty = true
  · rw [if_pos empty]
    exact steps.value ()
  · rw [if_neg empty]
    apply steps.sequence (steps.write .error _)
    intro _
    exact steps.flush .error

theorem report (steps : Compositional scope property) (count : Nat)
    (tally : Concatenation.Tally) : property (Concatenation.report count tally) := by
  unfold Concatenation.report
  by_cases all : tally.failures = count
  · rw [if_pos all]
    exact steps.fatal _
  · rw [if_neg all]
    apply steps.sequence (steps.write .output _)
    intro _
    apply steps.sequence (steps.flush .output)
    intro _
    apply steps.sequence (steps.showDiagnostics _)
    intro _
    exact steps.value _

theorem concatenation (steps : Compositional scope property) (rule : PathRule)
    (files : FileView) (arguments : List Text) :
    property ((Concatenation.command rule files).run arguments scope) := by
  cases arguments with
  | nil =>
      apply steps.sequence steps.copyLines
      intro _
      apply steps.sequence (steps.flush .output)
      intro _
      exact steps.value _
  | cons argument arguments =>
      apply steps.sequence steps.directory
      intro _
      exact steps.report _ _

theorem type (steps : Compositional scope property) (arguments : List Text) :
    property (Builtin.type.run arguments scope) := by
  cases arguments with
  | nil =>
      apply steps.sequence (steps.write .error _)
      intro _
      exact steps.value _
  | cons name arguments =>
      simp only [Builtin.type]
      split
      · apply steps.sequence (steps.write .output _)
        intro _
        exact steps.value _
      · apply steps.sequence (steps.write .error _)
        intro _
        exact steps.value _

/-- Every command of the shell has the property. -/
theorem of_mem_registry (steps : Compositional scope property) {rule : PathRule}
    {files : FileView} {command : Command}
    (member : command ∈ (Builtin.registry rule files).commands) (arguments : List Text) :
    property (command.run arguments scope) := by
  simp only [Builtin.registry, List.mem_cons, List.not_mem_nil, or_false] at member
  rcases member with same | same | same | same | same
  · subst same
    exact steps.concatenation rule files arguments
  · subst same
    apply steps.sequence (steps.write .output _)
    intro _
    exact steps.value _
  · subst same
    apply steps.sequence steps.directory
    intro _
    apply steps.sequence (steps.write .output _)
    intro _
    exact steps.value _
  · subst same
    exact steps.type arguments
  · subst same
    exact steps.value _

/-- A line has the property if the commands of the registry have it. -/
theorem handle (steps : Compositional scope property) (registry : Registry)
    (commands : forall command, command ∈ registry.commands ->
      forall arguments, property (command.run arguments scope))
    (line : Text) : property (registry.handle line scope) := by
  unfold Registry.handle
  split
  · exact steps.invalidQuoting
  · exact steps.value _
  · split
    · exact steps.value _
    · split
      · next run found =>
          simp only [Registry.run?, Option.map_eq_some_iff] at found
          rcases found with ⟨command, first, same⟩
          subst same
          apply steps.sequence (commands command (List.mem_of_find?_eq_some first) _)
          intro _
          exact steps.value _
      · exact steps.commandNotFound _

theorem handle_registry (steps : Compositional scope property) (rule : PathRule)
    (files : FileView) (line : Text) :
    property ((Builtin.registry rule files).handle line scope) := by
  apply steps.handle
  intro command member
  exact steps.of_mem_registry member

end Compositional
end StreamM
end MiniShell
