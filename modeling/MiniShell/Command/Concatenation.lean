import MiniShell.Command.Registry
import MiniShell.Lookup

namespace MiniShell
namespace Concatenation

/-!
# Concatenating files

The arguments are read one after the other, and nothing is printed before the
last one.  A file that could be read gives its contents and a newline.  An
argument that could not gives a diagnostic, which stands in the output at the
place of the file and is repeated on the error stream.  When no argument at all
could be read, nothing is printed and the command fails with what it would have
printed.

Without arguments the input is copied to the output line by line.
-/

/-- Why an argument gave no contents. -/
inductive Refusal where
  | missing
  | unreadable
  | directory
  /-- Reading failed for the given reason. -/
  | failed (reason : Text)
  deriving DecidableEq, Repr

def Refusal.message : Refusal -> Text
  | .missing => "No such file or directory".toList
  | .unreadable => "Permission denied".toList
  | .directory => "Is a directory".toList
  | .failed reason => reason

def readPath (files : FileView) (path : Path) : Except Refusal Bytes :=
  if !files.isReadable path then .error .unreadable
  else if files.isDirectory path then .error .directory
  else
    match files.read path with
    | .ok contents => .ok contents
    | .error fault => .error (.failed fault.reason)

/-- The contents that one argument names below a tracked directory. -/
def readArgument (rule : PathRule) (files : FileView) (directory argument : Text) :
    Except Refusal Bytes :=
  match (Lookup.ofArgument rule files directory argument).found with
  | none => .error .missing
  | some path => readPath files path

def diagnostic (argument : Text) (refusal : Refusal) : Text :=
  argument ++ ": ".toList ++ refusal.message ++ ['\n']

/-- What the arguments so far have come to. -/
structure Tally where
  /-- The contents and the diagnostics, in the order of the arguments. -/
  output : Bytes := []
  diagnostics : Text := []
  failures : Nat := 0
  deriving DecidableEq, Repr

/-- Take one more argument into account. -/
def Tally.add (tally : Tally) (argument : Text) : Except Refusal Bytes -> Tally
  | .ok contents => { tally with output := tally.output ++ contents ++ [Source.newline] }
  | .error refusal =>
      let line := diagnostic argument refusal
      { output := tally.output ++ Utf8.encode line
        diagnostics := tally.diagnostics ++ line
        failures := tally.failures + 1 }

def tally (rule : PathRule) (files : FileView) (directory : Text)
    (arguments : List Text) : Tally :=
  arguments.foldl
    (fun tally argument =>
      tally.add argument (readArgument rule files directory argument)) {}

/-- Repeat the diagnostics.  The error stream is touched only if there are any. -/
def showDiagnostics (diagnostics : Text) : StreamM Unit :=
  if diagnostics.isEmpty then pure ()
  else do
    StreamM.writeError (Utf8.encode diagnostics)
    StreamM.flushError

/-- Print the tally of so many arguments. -/
def report (count : Nat) (tally : Tally) : StreamM Int :=
  if tally.failures = count then throw (.fatal (Utf8.decodeLossy tally.output))
  else do
    StreamM.writeOutput tally.output
    StreamM.flushOutput
    showDiagnostics tally.diagnostics
    pure (if 0 < tally.failures then 1 else 0)

/-- Copy lines until the input ends.  A line that has been read is written
before the next one is asked for. -/
def copyLines (streams : Streams) : EStateM.Result ShellError Streams Unit :=
  match _ : streams.input.readLine with
  | (.error fault, input) => .error (.io fault) { streams with input := input }
  | (.ok [], input) => .ok () { streams with input := input }
  | (.ok (byte :: line), input) =>
      match streams.output.write (byte :: line) with
      | (.ok (), output) => copyLines { streams with input := input, output := output }
      | (.error fault, output) =>
          .error (.io fault) { streams with input := input, output := output }
termination_by streams.input.pending.length
decreasing_by
  exact Source.length_lt_of_readLine_ok (by assumption)

def copyInput : StreamM Int := do
  copyLines
  StreamM.flushOutput
  pure 0

def concatenate (rule : PathRule) (files : FileView) (arguments : List Text)
    (scope : Variables) : StreamM Int := do
  let directory ← StreamM.lift scope.directory
  report arguments.length (tally rule files directory arguments)

def name : Text := "cat".toList

def command (rule : PathRule) (files : FileView) : Command where
  name := name
  description := "Concatenate files and print them".toList
  run arguments scope :=
    if arguments.isEmpty then copyInput
    else concatenate rule files arguments scope

end Concatenation
end MiniShell
