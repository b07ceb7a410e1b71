import ProtocolCodegen.Config
import ProtocolCodegen.Files.FileStore
import ProtocolCodegen.Text.Sorted

/-!
# Output files

A generated file is checked, the directories on the way to it are made, and its content is put in
place.  An atomic write goes through a temporary file beside the target, which then takes the
target's name; so the target holds either its old content or all of the new one.
-/

namespace ProtocolCodegen

/-- Why generated files were not written. -/
inductive OutputError where
  /-- The content is blank. -/
  | blank
  /-- The content is not a text in UTF-8. -/
  | notText
  /-- Something stands where a new file is to be written. -/
  | taken (path : FilePath)
  /-- There are several files, but the output is not a directory. -/
  | notDirectory (count : Nat)
  /-- A step on files fails. -/
  | file (error : FileError)
  deriving DecidableEq, Repr

/-- What is said when generated files were not written. -/
def OutputError.message : OutputError → String
  | .blank => "Generated output is empty"
  | .notText => "Generated output is not valid UTF-8"
  | .taken path => "Output file already exists: " ++ path.text ++ ". Use --force to overwrite."
  | .notDirectory count => toString count ++ " files generated; output must be a directory"
  | .file error => error.message

namespace Output

/-- Whether a byte is one of the six ASCII blanks. -/
def isBlankByte (byte : UInt8) : Bool :=
  byte == 0x20 || (0x09 ≤ byte && byte ≤ 0x0D)

/-- Accepts a content that is a text of more than blanks. -/
def check (content : ByteArray) : Except OutputError Unit :=
  if content.toList.all isBlankByte then .error .blank
  else if content.validateUTF8 then .ok ()
  else .error .notText

/-- A number in eight digits or more. -/
def paddedDigits (number : Nat) : String :=
  let digits := toString number
  String.ofList (List.replicate (8 - digits.length) '0') ++ digits

/-- The path of a temporary file beside a path. -/
def temporary (path : FilePath) (number : Nat) : FilePath :=
  path.withName ("." ++ path.name ++ "." ++ paddedDigits number ++ ".tmp")

/-- How many names are tried for a temporary file. -/
def maxAttempts : Nat := 10000

section Steps

variable {m : Type → Type} [Monad m] [FileStore m] {α : Type}

/-- Takes a step on files, whose failure is a failure of the output. -/
def attempt (step : m (Except FileError α)) : ExceptT OutputError m α :=
  ExceptT.mk (Except.mapError OutputError.file <$> step)

/-- Whether a directory stands at a path. -/
def isDirectory (path : FilePath) : ExceptT OutputError m Bool := do
  return (← attempt (FileStore.kind path)) == some .directory

/-- Whether something stands at a path. -/
def isTaken (path : FilePath) : ExceptT OutputError m Bool := do
  return (← attempt (FileStore.kind path)).isSome

/-- Makes a directory unless it is there already; tells whether it is there now, or whether a
directory on the way to it is missing. -/
def ensureDirectory (path : FilePath) : ExceptT OutputError m Bool := do
  match ← ExceptT.lift (FileStore.makeDirectory path) with
  | .ok () => return true
  | .error .notFound => return false
  | .error error => if ← isDirectory path then return true else throw (.file error)

/-- Makes a directory, and before it the directories on the way that are missing, unless it is there
already.  The components come last one first. -/
def makeDirectories (slashes : Nat) : List String → ExceptT OutputError m Unit
  | [] => do
      if !(← ensureDirectory ⟨slashes, []⟩) then
        throw (.file .notFound)
  | component :: others => do
      let path : FilePath := ⟨slashes, (component :: others).reverse⟩
      if !(← ensureDirectory path) then
        makeDirectories slashes others
        if !(← ensureDirectory path) then
          throw (.file .notFound)

/-- Makes a temporary file with a content beside a path, under the first name of those that remain
which is not in use. -/
def createTemporary (path : FilePath) (content : ByteArray) :
    Nat → ExceptT OutputError m FilePath
  | 0 => throw (.file (.alreadyExists path))
  | remaining + 1 => do
      let candidate := temporary path (maxAttempts - (remaining + 1))
      match ← ExceptT.lift (FileStore.create candidate content) with
      | .ok () => return candidate
      | .error (.alreadyExists _) => createTemporary path content remaining
      | .error error => throw (.file error)

/-- Writes a file through a temporary file, which is removed if it cannot take the place of the
target. -/
def replace (path : FilePath) (content : ByteArray) : ExceptT OutputError m Unit := do
  let source ← createTemporary path content maxAttempts
  match ← ExceptT.lift (FileStore.rename source path) with
  | .ok () => return
  | .error error =>
      if ← isTaken source then
        attempt (FileStore.remove source)
      throw (.file error)

/-- Writes a file, whatever stands there; `checked` asks for a check of the content before. -/
def write (path : FilePath) (content : ByteArray) (atomic checked : Bool) :
    ExceptT OutputError m Unit := do
  if checked then
    ExceptT.mk (return check content)
  makeDirectories path.slashes path.components.dropLast.reverse
  if atomic then
    replace path content
  else
    attempt (FileStore.write path content)

/-- Writes a file where nothing stands. -/
def writeNew (path : FilePath) (content : ByteArray) (atomic checked : Bool) :
    ExceptT OutputError m Unit := do
  if ← isTaken path then
    throw (.taken path)
  write path content atomic checked

/-- Writes a file in the manner of a configuration. -/
def writeFor (config : OutputConfig) (path : FilePath) (content : ByteArray) :
    ExceptT OutputError m Unit :=
  match config.mode with
  | .force => write path content config.atomicWrite true
  | .errorIfExists => writeNew path content config.atomicWrite true

/-- A file that was written. -/
structure Written where
  /-- The path of the file. -/
  path : FilePath
  /-- The number of bytes in it. -/
  size : Nat
  deriving DecidableEq, Repr

/-- What came of writing files: the files that were written, and whether these are all. -/
structure Report where
  /-- The files that were written, in order. -/
  written : List Written
  /-- Why the next file was not written, if there is one. -/
  result : Except OutputError Unit

/-- Writes files one after the other until one fails. -/
def writeEach (config : OutputConfig) : List (FilePath × ByteArray) → m Report
  | [] => return ⟨[], .ok ()⟩
  | (path, content) :: rest => do
      match ← (writeFor config path content).run with
      | .ok () =>
          let report ← writeEach config rest
          return { report with written := ⟨path, content.size⟩ :: report.written }
      | .error error => return ⟨[], .error error⟩

/-- Whether an output is meant as a directory: it ends in a separator, or it is one. -/
def isDirectoryOutput (output : String) : ExceptT OutputError m Bool :=
  match output.toList.getLast? with
  | some '/' | some '\\' => return true
  | _ => isDirectory (FilePath.ofText output)

/-- The paths of generated files: in a directory each has its name, otherwise the output is the path
of the only file. -/
def targets (files : List (String × ByteArray)) (output : String) (inDirectory : Bool) :
    Except OutputError (List (FilePath × ByteArray)) :=
  let base := FilePath.ofText output
  if inDirectory then .ok (files.map fun (name, content) => (base.join (.ofText name), content))
  else if files.length > 1 then .error (.notDirectory files.length)
  else .ok (files.map fun (_, content) => (base, content))

/-- Writes generated files in the order of their names. -/
def writeAll (files : List (String × ByteArray)) (output : String) (config : OutputConfig) :
    m Report := do
  match ← (isDirectoryOutput output).run with
  | .error error => return ⟨[], .error error⟩
  | .ok inDirectory =>
      match targets (Text.sortedBy (·.1) files) output inDirectory with
      | .error error => return ⟨[], .error error⟩
      | .ok targets => writeEach config targets

end Steps
end Output
end ProtocolCodegen
