import MiniShell.Program

namespace MiniShell
namespace Console

/-!
# The shell as a process

Everything that a run may look at is looked at first: the arguments, the
environment, the whole input and the files behind the paths that its lines may
ask about.  The run itself is `Program.run`, and afterwards its report is
written.
-/

/-- The fault that stands behind an error. -/
def fault : IO.Error -> Fault
  | .otherError code words | .resourceBusy code words
  | .resourceVanished code words | .unsupportedOperation code words
  | .hardwareFault code words | .unsatisfiedConstraints code words
  | .illegalOperation code words | .protocolError code words
  | .timeExpired code words | .interrupted _ code words
  | .alreadyExists _ code words | .noFileOrDirectory _ code words
  | .invalidArgument _ code words | .permissionDenied _ code words
  | .resourceExhausted _ code words | .inappropriateType _ code words
  | .noSuchThing _ code words => .system code.toNat words.toList
  | .unexpectedEof => .ofKind .unexpectedEnd
  | .userError words => .custom words.toList

/-- Is this the fault of reading a directory? -/
def isOfDirectory : Fault -> Bool
  | .system code _ => code == 21
  | _ => false

/-- What is found at a path now.  A directory can be opened, and it is known by
the fault of reading it. -/
def observe (path : Path) : IO FileRecord := do
  let name := String.ofList (Utf8.decodeLossy path)
  let isPresent := (← (IO.FS.realPath name).toBaseIO).isOk
  match ← (IO.FS.Handle.mk name .read).toBaseIO with
  | .error error =>
      pure { path, isPresent, isReadable := false, contents := .error (fault error) }
  | .ok handle =>
      match ← handle.readBinToEnd.toBaseIO with
      | .ok contents => pure { path, isPresent, contents := .ok contents.toList }
      | .error error =>
          pure { path, isPresent, isDirectory := isOfDirectory (fault error)
                 contents := .error (fault error) }

def readAll (stream : IO.FS.Stream) : IO Bytes := do
  let mut contents := ByteArray.empty
  repeat
    let chunk ← stream.read 65536
    if chunk.isEmpty then break
    contents := contents ++ chunk
  pure contents.toList

/-- What this process was started with, except for the files. -/
def surroundings (arguments : List String) : IO Program.Surroundings := do
  let rule ← IO.getEnv (String.ofList Program.ruleVariable)
  let directory ← IO.currentDir.toBaseIO
  pure
    { arguments := arguments.map fun argument => Utf8.encode argument.toList
      environment := rule.map fun value => Utf8.encode value.toList
      directory :=
        match directory with
        | .ok path => .ok (Utf8.encode (toString path).toList)
        | .error error => .error (fault error)
      input := ← readAll (← IO.getStdin) }

/-- Write bytes to a stream, and hold nothing back. -/
def writeAll (stream : IO.FS.Stream) (bytes : Bytes) : IO Unit := do
  stream.write (ByteArray.mk bytes.toArray)
  stream.flush

/-- Run the shell as this process.  The result is the exit code. -/
def run (arguments : List String) : IO UInt32 := do
  let surroundings ← Console.surroundings arguments
  let records ← (Program.paths surroundings).mapM observe
  let report := Program.run { surroundings with files := .ofRecords records }
  writeAll (← IO.getStdout) report.output
  writeAll (← IO.getStderr) report.error
  pure (UInt32.ofNat report.code)

end Console
end MiniShell

def main (arguments : List String) : IO UInt32 :=
  MiniShell.Console.run arguments
