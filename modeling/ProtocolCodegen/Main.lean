import ProtocolCodegen.CommandLine.Run

/-!
# The program

The command, run on the files of the system.
-/

namespace ProtocolCodegen

/-- The reason for which the system refuses a step at a path. -/
def FileError.ofSystem (path : FilePath) : IO.Error → FileError
  | .alreadyExists .. => .alreadyExists path
  | .noFileOrDirectory .. => .notFound
  | .inappropriateType .. => .isDirectory
  | .invalidArgument .. => .nameTooLong
  | _ => .busy

/-- Takes a step of the system at a path. -/
def systemStep {α : Type} (path : FilePath) (step : IO α) : IO (Except FileError α) := do
  try
    return .ok (← step)
  catch error =>
    return .error (.ofSystem path error)

/-- What stands at a path: a file can be read, a directory can only be opened. -/
def systemKind (path : FilePath) : IO (Except FileError (Option EntryKind)) := do
  match ← systemStep path (IO.FS.Handle.mk path.text .read) with
  | .ok handle =>
      match ← systemStep path (handle.read 1) with
      | .error .isDirectory => return .ok (some .directory)
      | _ => return .ok (some .file)
  | .error .busy => return .ok (some .file)
  | .error .nameTooLong => return .error .nameTooLong
  | .error _ => return .ok none

/-- Makes a file with a content, which fails if something stands there. -/
def systemCreate (path : FilePath) (content : ByteArray) : IO Unit := do
  let handle ← IO.FS.Handle.mk path.text .writeNew
  handle.write content

instance : FileStore IO where
  workingDirectory := return .ofText (← IO.currentDir).toString
  kind := systemKind
  read path := systemStep path (IO.FS.readBinFile path.text)
  makeDirectory path := systemStep path (IO.FS.createDir path.text)
  create path content := systemStep path (systemCreate path content)
  write path content := systemStep path (IO.FS.writeBinFile path.text content)
  rename path target := systemStep path (IO.FS.rename path.text target.text)
  remove path := systemStep path (IO.FS.removeFile path.text)

/-- What stands behind a stream of the system. -/
def displayOf (stream : IO.FS.Stream) : IO CommandLine.Display :=
  return if ← stream.isTty then .terminal else .plain

end ProtocolCodegen

/-- Runs the command with the arguments of the program. -/
def main (arguments : List String) : IO UInt32 := do
  let outcome ← ProtocolCodegen.CommandLine.run arguments
  IO.print (outcome.stdout (← ProtocolCodegen.displayOf (← IO.getStdout)))
  IO.eprint (outcome.stderr (← ProtocolCodegen.displayOf (← IO.getStderr)))
  return outcome.exitCode.toUInt32
