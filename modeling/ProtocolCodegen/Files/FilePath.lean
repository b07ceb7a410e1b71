import ProtocolCodegen.Text.Lines

/-!
# File paths

A path leads through its components, from the root or from the directory in which the program runs.
Empty components and single points lead nowhere and are dropped.  Two points lead to the parent of a
directory; they stay, since what they mean depends on the directory.
-/

namespace ProtocolCodegen

/-- A path to a file or to a directory. -/
structure FilePath where
  /-- The number of slashes at the front: none in a relative path, otherwise one or two. -/
  slashes : Nat
  /-- The names on the way, of which the last one is the name of the path. -/
  components : List String
  deriving DecidableEq, Repr, Inhabited

namespace FilePath

/-- The path that a text spells.  Two slashes at the front are kept, three and more count as one. -/
def ofText (text : String) : FilePath where
  slashes :=
    let slashes := (text.toList.takeWhile (· == '/')).length
    if slashes < 3 then slashes else 1
  components := (Text.splitOn '/' text).filter fun component => component != "" && component != "."

/-- The text of a path; a path that leads nowhere is a single point. -/
def text (path : FilePath) : String :=
  if path.slashes = 0 && path.components.isEmpty then "."
  else String.ofList (List.replicate path.slashes '/') ++ String.intercalate "/" path.components

/-- The last component of a path, or the empty text. -/
def name (path : FilePath) : String :=
  path.components.getLast?.getD ""

/-- A path without its last component. -/
def parent (path : FilePath) : FilePath :=
  { path with components := path.components.dropLast }

/-- The path that follows another one; an absolute path does not need the other one. -/
def join (path next : FilePath) : FilePath :=
  if next.slashes = 0 then { path with components := path.components ++ next.components } else next

/-- The path beside another one that has a given name. -/
def withName (path : FilePath) (name : String) : FilePath :=
  { path with components := path.components.dropLast ++ [name] }

/-- Goes on by a component from the names on the way from the root. -/
def enter (names : List String) (component : String) : List String :=
  if component = ".." then names.dropLast else names ++ [component]

/-- The absolute path without double points that a path spells in a directory. -/
def resolve (directory path : FilePath) : FilePath where
  slashes := 1
  components := (directory.join path).components.foldl enter []

/-- Whether a path holds the zero character, which no file name can hold. -/
def hasZero (path : FilePath) : Bool :=
  path.components.any (·.toList.contains '\x00')

/-- Whether a path ends in a step to a directory rather than in a name. -/
def endsInStep (path : FilePath) : Bool :=
  path.name == "" || path.name == ".."

theorem enter_name (names : List String) {component : String} (different : component ≠ "..") :
    enter names component = names ++ [component] := by
  simp [enter, different]

end FilePath
end ProtocolCodegen
