import MiniShell.Command.Concatenation

namespace MiniShell
namespace Builtin

/-!
# The commands of the shell

Besides concatenation there are four commands that never look at files: one
repeats its arguments, one prints the tracked directory, one says what a name
stands for, and one ends the shell.  None of these flushes what it has
written.
-/

/-- The names of the commands, in the order of their registration. -/
def names : List Text :=
  ["cat".toList, "echo".toList, "pwd".toList, "type".toList, "exit".toList]

/-- The command `echo`: its arguments on one line, with single spaces. -/
def echo : Command where
  name := "echo".toList
  description := "Echo arguments to stdout".toList
  run arguments _ := do
    StreamM.writeOutput (Utf8.encode ([' '].intercalate arguments ++ ['\n']))
    pure 0

/-- A directory marker as a path for people: without its trailing slashes,
unless there is nothing else. -/
def printedDirectory (marker : Text) : Text :=
  let trimmed := (marker.reverse.dropWhile (· == '/')).reverse
  if trimmed.isEmpty then marker else trimmed

def pwd : Command where
  name := "pwd".toList
  description := "Print the tracked working directory".toList
  run _ scope := do
    let marker ← StreamM.lift scope.directory
    StreamM.writeOutput (Utf8.encode (printedDirectory marker ++ ['\n']))
    pure 0

/-- The command `type`: what its first argument stands for.  It speaks of the
commands of the shell, whatever else is registered. -/
def type : Command where
  name := "type".toList
  description := "Print the type of a command".toList
  run arguments _ := do
    match arguments with
    | [] =>
        StreamM.writeError (Utf8.encode "type: usage: type name\n".toList)
        pure 1
    | name :: _ =>
        if names.contains name then
          StreamM.writeOutput (Utf8.encode (name ++ " is a shell builtin\n".toList))
          pure 0
        else
          StreamM.writeError (Utf8.encode (name ++ ": not found\n".toList))
          pure 1

/-- The code that `exit` asks for: its first argument, or zero if that is no
number or does not fit. -/
def requestedCode (arguments : List Text) : Int :=
  (arguments.head?.bind Decimal.word32?).getD 0

def exit : Command where
  name := "exit".toList
  description := "Exit the shell".toList
  run _ _ := pure 0
  exitCode? arguments := some (requestedCode arguments)

/-- All commands of the shell, over the given files. -/
def registry (rule : PathRule) (files : FileView) : Registry where
  commands := [Concatenation.command rule files, echo, pwd, type, exit]

@[simp] theorem names_registry (rule : PathRule) (files : FileView) :
    (registry rule files).names = names := rfl

end Builtin
end MiniShell
