import MiniShell.Interaction
import MiniShell.Options

namespace MiniShell
namespace Program

/-!
# The whole program

From the arguments, the environment and the input of a process to its exit code
and to what it writes.  Statuses and codes wrap around at two hundred and
fifty-six, and an error that ends the shell is reported in the program's name.
-/

/-- A directory that can be told. -/
instance : Coe Path (Except Fault Path) where
  coe := .ok

/-- What a process is started with. -/
structure Surroundings where
  arguments : List Bytes
  environment : Option Bytes := none
  /-- The current directory of the process, or why it cannot be told. -/
  directory : Except Fault Path
  files : FileView := .ofRecords []
  input : Bytes := []

structure Report where
  code : Nat
  output : Bytes := []
  error : Bytes := []
  deriving DecidableEq, Repr

def ruleVariable : Text := "SHELL_PATH_RULE".toList

def runLine (files : FileView) (session : Session) (line : Text)
    (streams : Streams) : Interaction.Ending × Streams :=
  let round := session.execute files line streams
  (.ofResult round.result, round.streams)

/-- The code of a process that ends with the given status. -/
def exitCode (status : Int) : Nat :=
  (status % 256).toNat

/-- What is written for an error that ends the shell. -/
def complaint (error : ShellError) : Bytes :=
  Utf8.encode ("catsh: ".toList ++ error.message ++ ['\n'])

def breakdownCode : Nat := 101

/-- What a process leaves behind that ends so, with these streams. -/
def report : Interaction.Ending × Streams -> Report
  | (.code status, streams) =>
      ⟨exitCode status, streams.output.stored, streams.error.stored⟩
  | (.failure error, streams) =>
      ⟨1, streams.output.stored, streams.error.stored ++ complaint error⟩
  | (.breakdown, streams) =>
      ⟨breakdownCode, streams.output.stored, streams.error.stored⟩

def refusalCode : OptionsError -> Nat
  | .helpRequested => 0
  | _ => 2

/-- Run the program.  The texts of help, of usage errors and of a breakdown are no
part of the report. -/
def run (surroundings : Surroundings) : Report :=
  match Options.parse surroundings.arguments surroundings.environment with
  | .error error => { code := refusalCode error }
  | .ok options =>
      let streams : Streams := { input := { pending := surroundings.input } }
      match options.session? surroundings.directory with
      | .error error => report (.failure error, streams)
      | .ok session =>
          match options.command with
          | some line => report (runLine surroundings.files session line streams)
          | none => report (Interaction.run surroundings.files ⟨session, 0, streams⟩)

/-- The lines that a run may carry out: the one of the options, else those of
the input. -/
def lines (options : Options) (input : Bytes) : List Text :=
  match options.command with
  | some line => [line]
  | none =>
      (Source.lines input).filterMap fun line =>
        (Utf8.decode? line).bind Interaction.edited?

/-- The paths about which a run may ask.  They do not depend on the files. -/
def paths (surroundings : Surroundings) : List Path :=
  match Options.parse surroundings.arguments surroundings.environment with
  | .error _ => []
  | .ok options =>
      match options.session? surroundings.directory with
      | .error _ => []
      | .ok session => (lines options surroundings.input).flatMap session.paths

end Program
end MiniShell
