import MiniShell.Streams
import MiniShell.Variables
import MiniShell.Words

namespace MiniShell

/-!
# Commands and registries

A command is known by its name.  A registry keeps commands in the order of
their registration, and the first command of a name is the one that counts, so
a later command of the same name is never reached.
-/

structure Command where
  name : Text
  description : Text
  /-- Run with arguments and variables.  The value is the status. -/
  run : List Text -> Variables -> StreamM Int
  /-- The code with which the shell ends in the place of running the command. -/
  exitCode? : List Text -> Option Int := fun _ => none

/-- Commands in the order of their registration. -/
structure Registry where
  commands : List Command := []

namespace Registry

def register (registry : Registry) (command : Command) : Registry where
  commands := registry.commands ++ [command]

/-- The names in the order of registration, repetitions included. -/
def names (registry : Registry) : List Text :=
  registry.commands.map (·.name)

/-- The first command of a name. -/
def find? (registry : Registry) (name : Text) : Option Command :=
  registry.commands.find? fun command => command.name == name

def contains (registry : Registry) (name : Text) : Bool :=
  (registry.find? name).isSome

/-- The code with which the command of a name ends the shell, if it does. -/
def exitCode? (registry : Registry) (name : Text) (arguments : List Text) :
    Option Int :=
  (registry.find? name).bind fun command => command.exitCode? arguments

def run? (registry : Registry) (name : Text) (arguments : List Text)
    (scope : Variables) : Option (StreamM Int) :=
  (registry.find? name).map fun command => command.run arguments scope

end Registry

/-- What the shell does after a line. -/
inductive Flow where
  /-- Go on.  The status is that of the line. -/
  | next (status : Int)
  | exit (code : Int)
  deriving DecidableEq, Repr

namespace Registry

/-- Carry out one line: split it into words, and let the command of the first
word have the others.  Ending the shell goes before running, and a line
without words is a success. -/
def handle (registry : Registry) (line : Text) (scope : Variables) :
    StreamM Flow :=
  match Words.split line with
  | none => throw .invalidQuoting
  | some [] => pure (.next 0)
  | some (name :: arguments) =>
      match registry.exitCode? name arguments with
      | some code => pure (.exit code)
      | none =>
          match registry.run? name arguments scope with
          | some run => run >>= fun status => pure (.next status)
          | none => throw (.commandNotFound (name ++ ": command not found".toList))

end Registry
end MiniShell
