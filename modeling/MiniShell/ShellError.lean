import MiniShell.Fault

namespace MiniShell

/-!
# Why a command line failed

Each cause has one message.  A cause of the form `fatal` holds a text that a
command has already put together, usually of several lines, and it is shown as
it is.  Every other message is one line.
-/

inductive ShellError where
  /-- No command has the name that the line begins with. -/
  | commandNotFound (description : Text)
  /-- The input cannot be read as command lines. -/
  | input (description : Text)
  | io (fault : Fault)
  | undefinedVariable (name : Text)
  /-- The command has said all there is to say. -/
  | fatal (diagnostics : Text)
  | invalidQuoting
  deriving DecidableEq, Repr

namespace ShellError

def message : ShellError -> Text
  | .commandNotFound description => description
  | .input description => "Input error: ".toList ++ description
  | .io fault => "IO error: ".toList ++ fault.description
  | .undefinedVariable name => "Undefined variable: ".toList ++ name
  | .fatal diagnostics => diagnostics
  | .invalidQuoting => "Invalid quoting in command".toList

/-- What a session writes to the error stream for an error.  Diagnostics that
a command has put together end their own lines. -/
def presentation : ShellError -> Text
  | .fatal diagnostics => diagnostics
  | error => error.message ++ ['\n']

end ShellError
end MiniShell
