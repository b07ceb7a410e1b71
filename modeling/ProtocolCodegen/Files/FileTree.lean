import ProtocolCodegen.Dictionary
import ProtocolCodegen.Files.FileStore

/-!
# Directory trees

A directory tree is a value that says what stands at each place.  A path leads to a place component
by component, and every place on the way has to be a directory.  A step that fails leaves the tree
as it was.
-/

namespace ProtocolCodegen

/-- The names on the way from the root of a tree. -/
abbrev Place := List String

/-- What stands at a place. -/
inductive Entry where
  /-- A directory. -/
  | directory
  /-- A file and its content. -/
  | file (content : ByteArray)

instance : DecidableEq Entry
  | .directory, .directory => isTrue rfl
  | .directory, .file _ | .file _, .directory => isFalse nofun
  | .file first, .file second =>
      match ByteArray.decEq first second with
      | isTrue same => isTrue (same ▸ rfl)
      | isFalse different => isFalse fun equal => different (Entry.file.inj equal)

/-- The kind of what stands at a place. -/
def Entry.kind : Entry → EntryKind
  | .directory => .directory
  | .file _ => .file

/-- What stands at the places below a root, and the place at which relative paths begin. -/
structure FileTree where
  /-- The place of the directory at which relative paths begin. -/
  workingDirectory : Place
  /-- What stands at each place but the root. -/
  entries : Dictionary Place Entry
  deriving DecidableEq

namespace FileTree

/-- The greatest number of bytes in a name. -/
def maxNameSize : Nat := 255

/-- The greatest number of bytes in a path. -/
def maxPathSize : Nat := 4095

/-- What stands at a place; the root is a directory. -/
def get? (tree : FileTree) (place : Place) : Option Entry :=
  if place.isEmpty then some .directory else tree.entries.get? place

/-- The tree in which an entry stands at a place. -/
def put (tree : FileTree) (place : Place) (entry : Entry) : FileTree :=
  { tree with entries := tree.entries.put place entry }

/-- The tree in which nothing stands at a place. -/
def erase (tree : FileTree) (place : Place) : FileTree :=
  { tree with entries := tree.entries.erase place }

/-- The place to which a component leads from a directory. -/
def descend (tree : FileTree) (place : Place) (component : String) : Except FileError Place :=
  match tree.get? place with
  | none => .error .notFound
  | some (.file _) => .error .notDirectory
  | some .directory =>
      if component.utf8ByteSize ≤ maxNameSize then .ok (FilePath.enter place component)
      else .error .nameTooLong

/-- The place at which a path begins. -/
def start (tree : FileTree) (path : FilePath) : Place :=
  if path.slashes = 0 then tree.workingDirectory else []

/-- The place to which a path leads; what is on the way are directories. -/
def locate (tree : FileTree) (path : FilePath) : Except FileError Place :=
  if path.hasZero then .error .zeroCharacter
  else if path.text.utf8ByteSize ≤ maxPathSize then
    path.components.foldlM tree.descend (tree.start path)
  else .error .nameTooLong

/-- What stands at a path. -/
def kind (tree : FileTree) (path : FilePath) : Except FileError (Option EntryKind) :=
  match tree.locate path with
  | .ok place => .ok ((tree.get? place).map Entry.kind)
  | .error .nameTooLong => .error .nameTooLong
  | .error _ => .ok none

/-- The content of the file at a path. -/
def read (tree : FileTree) (path : FilePath) : Except FileError ByteArray := do
  match tree.get? (← tree.locate path) with
  | none => throw .notFound
  | some .directory => throw .isDirectory
  | some (.file content) => return content

/-- Puts an entry at a path at which nothing stands. -/
def make (tree : FileTree) (path : FilePath) (entry : Entry) : Except FileError FileTree := do
  let place ← tree.locate path
  match tree.get? place with
  | none => return tree.put place entry
  | some _ => throw (.alreadyExists path)

/-- Puts a file at a path at which no directory stands. -/
def write (tree : FileTree) (path : FilePath) (content : ByteArray) :
    Except FileError FileTree := do
  let place ← tree.locate path
  match tree.get? place with
  | some .directory => throw .isDirectory
  | _ => return tree.put place (.file content)

/-- Takes away the file at a path. -/
def remove (tree : FileTree) (path : FilePath) : Except FileError FileTree := do
  let place ← tree.locate path
  match tree.get? place with
  | none => throw .notFound
  | some .directory => throw .isDirectory
  | some (.file _) => return tree.erase place

/-- Moves the file at a path to another path at which no directory stands. -/
def rename (tree : FileTree) (path target : FilePath) : Except FileError FileTree := do
  let content ← tree.read path
  let _ ← tree.locate target
  if target.endsInStep then throw .busy
  (← tree.remove path).write target content

/-- Takes a step that yields a tree, or keeps the tree if the step fails. -/
def step (next : FileTree → Except FileError FileTree) : StateM FileTree (Except FileError Unit) :=
  fun tree =>
    match next tree with
    | .ok changed => (.ok (), changed)
    | .error error => (.error error, tree)

instance : FileStore (StateM FileTree) where
  workingDirectory := return ⟨1, (← get).workingDirectory⟩
  kind path := return (← get).kind path
  read path := return (← get).read path
  makeDirectory path := step (·.make path .directory)
  create path content := step (·.make path (.file content))
  write path content := step (·.write path content)
  rename path target := step (·.rename path target)
  remove path := step (·.remove path)

/-- The tree in which a place and the places on the way to it are directories. -/
def withDirectory (tree : FileTree) (place : Place) : FileTree :=
  (List.range place.length).foldl (fun tree length => tree.put (place.take (length + 1)) .directory)
    tree

/-- The tree in which a file stands at a place, in a directory. -/
def withFile (tree : FileTree) (place : Place) (content : ByteArray) : FileTree :=
  (tree.withDirectory place.dropLast).put place (.file content)

/-- The tree of a working directory with directories and files whose places lie below it. -/
def ofEntries (workingDirectory : Place) (directories : List Place)
    (files : List (Place × ByteArray)) : FileTree :=
  let empty : FileTree := ⟨workingDirectory, []⟩
  let tree := directories.foldl (fun tree place => tree.withDirectory (workingDirectory ++ place))
    (empty.withDirectory workingDirectory)
  files.foldl (fun tree file => tree.withFile (workingDirectory ++ file.1) file.2) tree

/-- What stands below the working directory, under relative paths. -/
def listing (tree : FileTree) : List (Place × Entry) :=
  tree.entries.filterMap fun (place, entry) =>
    match tree.workingDirectory.isPrefixOf place, place.drop tree.workingDirectory.length with
    | true, name :: rest => some (name :: rest, entry)
    | _, _ => none

theorem get?_put (tree : FileTree) (place other : Place) (entry : Entry) :
    (tree.put place entry).get? other =
      if other.isEmpty then some .directory
      else if place = other then some entry else tree.get? other := by
  by_cases empty : other.isEmpty <;> simp [get?, put, empty, Dictionary.get?_put]

end FileTree
end ProtocolCodegen
