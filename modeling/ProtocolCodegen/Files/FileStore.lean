import ProtocolCodegen.Files.FilePath
import ProtocolCodegen.Text.Quoted

/-!
# File stores

What a program does with files: it looks at what stands at a path, reads, makes directories, writes,
renames and removes.  Each step succeeds as a whole or fails for a stated reason.  A program over a
file store runs on the files of the system as well as on a directory tree that is a plain value.
-/

namespace ProtocolCodegen

/-- What can stand at a path. -/
inductive EntryKind where
  /-- A regular file. -/
  | file
  /-- A directory. -/
  | directory
  deriving DecidableEq, Repr

/-- Why a step on files fails. -/
inductive FileError where
  /-- Nothing stands at the path, or at a directory on the way. -/
  | notFound
  /-- A file stands where a directory is needed. -/
  | notDirectory
  /-- A directory stands where a file is needed. -/
  | isDirectory
  /-- Something stands at the path already. -/
  | alreadyExists (path : FilePath)
  /-- A name or the whole path is too long. -/
  | nameTooLong
  /-- A path that ends in a step to a directory cannot be replaced. -/
  | busy
  /-- The path holds the zero character. -/
  | zeroCharacter
  deriving DecidableEq, Repr

/-- What is said of a failed step. -/
def FileError.message : FileError → String
  | .notFound => "No such file or directory"
  | .notDirectory => "Not a directory"
  | .isDirectory => "Is a directory"
  | .alreadyExists path => "[Errno 17] File exists: " ++ Text.quoted path.text
  | .nameTooLong => "File name too long"
  | .busy => "Device or resource busy"
  | .zeroCharacter => "embedded null byte"

/-- The steps on files that a monad offers. -/
class FileStore (m : Type → Type) where
  /-- The directory at which relative paths begin. -/
  workingDirectory : m FilePath
  /-- What stands at a path.  A path that leads nowhere is no failure, too long a name is. -/
  kind : FilePath → m (Except FileError (Option EntryKind))
  /-- The content of a file. -/
  read : FilePath → m (Except FileError ByteArray)
  /-- Makes a directory where nothing stands. -/
  makeDirectory : FilePath → m (Except FileError Unit)
  /-- Makes a file with a content where nothing stands. -/
  create : FilePath → ByteArray → m (Except FileError Unit)
  /-- Writes the content of a file, which is made if nothing stands there. -/
  write : FilePath → ByteArray → m (Except FileError Unit)
  /-- Moves the file at the first path to the second one, where it replaces a file. -/
  rename : FilePath → FilePath → m (Except FileError Unit)
  /-- Removes a file. -/
  remove : FilePath → m (Except FileError Unit)

end ProtocolCodegen
