import MiniShell.Session

namespace MiniShell

/-!
# Command line options

The shell has three options, each with one value and each given at most once.
An option and its value stand in one argument or in two, and an argument that
begins with a dash is never the second of two, unless it is a single dash.

A value in the same argument is checked at once.  A value of its own is checked
when the next known option or the end is reached.  What is said about a mistake
therefore depends on the order of the arguments: an unknown argument is
reported before a bad value that stands just before it.

The path rule may also come from the environment.  That value is looked at only
if the option is absent, and after all arguments.
-/

/-- What the options can say. -/
inductive Setting where
  /-- A line to carry out in the place of reading lines. -/
  | command
  | rule
  | directory
  deriving DecidableEq, Repr

/-- Why the arguments are not accepted. -/
inductive OptionsError where
  | invalidValue
  | unknownArgument
  | repeatedOption
  /-- Not a mistake: help was asked for. -/
  | helpRequested
  /-- An option without a value is given one. -/
  | unexpectedValue
  /-- A value has to be a text and is not. -/
  | notText
  deriving DecidableEq, Repr

/-- The reading of one argument by itself. -/
inductive Token where
  /-- Two dashes, after which no argument is an option. -/
  | terminator
  | help
  | helpWithValue
  | unknown
  | complete (setting : Setting) (value : Bytes)
  /-- An option whose value is still to come. -/
  | opening (setting : Setting)
  | plain (value : Bytes)
  deriving DecidableEq, Repr

namespace Token

def dash : UInt8 := 0x2D

def equals : UInt8 := 0x3D

/-- The reading of an argument that begins with two dashes and goes on. -/
def ofLong (body : Bytes) : Token :=
  let name := body.takeWhile (· != equals)
  let value? :=
    match body.dropWhile (· != equals) with
    | [] => none
    | _ :: value => some value
  let ofSetting := fun setting : Setting =>
    match value? with
    | some value => complete setting value
    | none => opening setting
  if name = Utf8.encode "path-rule".toList then ofSetting .rule
  else if name = Utf8.encode "cwd".toList then ofSetting .directory
  else if name = Utf8.encode "help".toList then
    if value?.isSome then helpWithValue else help
  else unknown

/-- The reading of an argument that begins with one dash and goes on. -/
def ofShort (letter : UInt8) (rest : Bytes) : Token :=
  if [letter] = Utf8.encode ['c'] then
    match rest with
    | [] => opening .command
    | byte :: value =>
        if byte = equals then complete .command value
        else complete .command (byte :: value)
  else if [letter] = Utf8.encode ['h'] then help
  else unknown

def ofArgument (argument : Bytes) : Token :=
  match argument with
  | first :: second :: rest =>
      if first != dash then plain argument
      else if second != dash then ofShort second rest
      else if rest.isEmpty then terminator
      else ofLong rest
  | _ => plain argument

end Token

structure Options where
  command : Option Text
  rule : PathRule
  directory : Option Path
  deriving DecidableEq, Repr

namespace Options

/-- The values that have been accepted so far. -/
structure Accepted where
  command : Option Text := none
  rule : Option PathRule := none
  directory : Option Path := none
  deriving DecidableEq, Repr

/-- The option that is not finished. -/
inductive Unfinished where
  | nothing
  | awaiting (setting : Setting)
  /-- An option with a value that has not been checked. -/
  | unchecked (setting : Setting) (value : Bytes)
  deriving DecidableEq, Repr

/-- The state of reading arguments. -/
structure Reading where
  accepted : Accepted := {}
  unfinished : Unfinished := .nothing
  terminated : Bool := false
  deriving DecidableEq, Repr

def ruleOf (value : Bytes) : Except OptionsError PathRule :=
  match PathRule.ofName? value with
  | some rule => .ok rule
  | none => .error .invalidValue

/-- Accept a value of an option that has none yet. -/
def accept (accepted : Accepted) (setting : Setting) (value : Bytes) :
    Except OptionsError Accepted :=
  match setting with
  | .command =>
      if accepted.command.isSome then .error .repeatedOption
      else
        match Utf8.decode? value with
        | some line => .ok { accepted with command := some line }
        | none => .error .notText
  | .rule =>
      if accepted.rule.isSome then .error .repeatedOption
      else (ruleOf value).map fun rule => { accepted with rule := some rule }
  | .directory =>
      if accepted.directory.isSome then .error .repeatedOption
      else if value.isEmpty then .error .invalidValue
      else .ok { accepted with directory := some value }

def settle (reading : Reading) : Except OptionsError Accepted :=
  match reading.unfinished with
  | .nothing => .ok reading.accepted
  | .awaiting _ => .error .invalidValue
  | .unchecked setting value => accept reading.accepted setting value

def step (reading : Reading) (token : Token) : Except OptionsError Reading :=
  if reading.terminated then .error .unknownArgument
  else
    match token with
    | .terminator => .ok { reading with terminated := true }
    | .unknown => .error .unknownArgument
    | .helpWithValue => .error .unexpectedValue
    | .help => do
        let _ ← settle reading
        .error .helpRequested
    | .complete setting value => do
        let accepted ← settle reading
        let accepted ← accept accepted setting value
        .ok { accepted := accepted }
    | .opening setting => do
        let accepted ← settle reading
        .ok { accepted := accepted, unfinished := .awaiting setting }
    | .plain value =>
        match reading.unfinished with
        | .awaiting setting =>
            .ok { reading with unfinished := .unchecked setting value }
        | _ => .error .unknownArgument

/-- The rule that holds: the one of the arguments, else the one of the
environment, else the default. -/
def chooseRule (given : Option PathRule) (environment : Option Bytes) :
    Except OptionsError PathRule :=
  match given, environment with
  | some rule, _ => .ok rule
  | none, some value => ruleOf value
  | none, none => .ok .replaceFinal

/-- The options that the arguments after the program's name spell, with the
rule of the environment if it has one. -/
def parse (arguments : List Bytes) (environment : Option Bytes) :
    Except OptionsError Options := do
  let reading ← (arguments.map Token.ofArgument).foldlM step {}
  let accepted ← settle reading
  let rule ← chooseRule accepted.rule environment
  .ok { command := accepted.command, rule := rule, directory := accepted.directory }

/-- The session that the options ask for, in a process whose current directory is
given. -/
def session (options : Options) (current : Path) : Session :=
  Session.start options.rule (options.directory.getD current)

/-- The same in a process that may be unable to tell its current directory.  It is only
asked for if the options give no directory, and then there is no session without it. -/
def session? (options : Options) (current : Except Fault Path) : Except ShellError Session :=
  match options.directory, current with
  | none, .error fault => .error (.io fault)
  | some directory, .error _ => .ok (options.session directory)
  | _, .ok directory => .ok (options.session directory)

theorem exists_start_of_session? {options : Options} {current : Except Fault Path}
    {session : Session} (begins : options.session? current = .ok session) :
    exists directory, session = Session.start options.rule directory := by
  unfold session? at begins
  split at begins
  · cases begins
  · exact ⟨_, (Except.ok.inj begins).symm⟩
  · exact ⟨_, (Except.ok.inj begins).symm⟩

end Options
end MiniShell
