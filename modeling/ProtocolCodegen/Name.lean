import ProtocolCodegen.Text.Case
import ProtocolCodegen.Text.Letter
import ProtocolCodegen.Text.Lines
import ProtocolCodegen.Text.Uppercase

/-!
# Names

How the names of a protocol become names of a target language: capitals at the front, words joined
by underscores, and the marks of internal names taken off.
-/

namespace ProtocolCodegen.Name

open Text

/-- A name with its first character in upper case. -/
def capitalize (name : String) : String :=
  match name.toList with
  | [] => ""
  | c :: rest => String.ofList (upperChar c ++ rest)

/-- A name with its first character in lower case. -/
def lowerFirst (name : String) : String :=
  match name.toList with
  | [] => ""
  | c :: rest => String.ofList (lowerChar c ++ rest)

/-- A text without one leading mark. -/
def dropMark (mark : Char) : List Char → List Char
  | [] => []
  | c :: rest => if c = mark then rest else c :: rest

/-- A name without the marks of internal names, a dollar sign and then an underscore. -/
def withoutMarks (name : String) : String :=
  String.ofList (dropMark '_' (dropMark '$' name.toList))

/-- The reserved leading characters of a naming convention that states none. -/
def defaultReserved : List (Char × String) :=
  [('_', "X")]

/-- The public form of a name: a reserved leading character is replaced, then the first letter is
raised. -/
def exported (reserved : List (Char × String)) (name : String) : String :=
  match name.toList with
  | [] => ""
  | c :: rest =>
      match reserved.lookup c with
      | some replacement => capitalize (replacement ++ String.ofList rest)
      | none => capitalize name

/-- Whether every letter of a text is a capital. -/
def isAllCapitals (text : List Char) : Bool :=
  text.all fun c => !isLetter c || isUppercase c

/-- Writes a text in another case, with an underscore before every capital that does not stand at
the front. -/
def joinWords (mapChar : Char → List Char) : Bool → List Char → List Char
  | _, [] => []
  | atFront, c :: rest =>
      (if isUppercase c && !atFront then ['_'] else []) ++ mapChar c ++ joinWords mapChar false rest

/-- Lower case of a capital; other characters are kept. -/
def lowerCapital (c : Char) : List Char :=
  if isUppercase c then lowerChar c else [c]

/-- The lower-case words of a text joined by underscores; a text in capitals is one word. -/
def snakeChars (text : List Char) : List Char :=
  if isAllCapitals text then lower text else joinWords lowerCapital true text

/-- The upper-case words of a text joined by underscores; a text in capitals is one word. -/
def screamingSnakeChars (text : List Char) : List Char :=
  if isAllCapitals text then upper text else joinWords upperChar true text

/-- The lower-case words of a name joined by underscores. -/
def snakeCase (name : String) : String :=
  String.ofList (snakeChars name.toList)

/-- The upper-case words of a name joined by underscores. -/
def screamingSnakeCase (name : String) : String :=
  String.ofList (screamingSnakeChars name.toList)

/-- A method without the mark of methods that any implementation may ignore. -/
def dropOptionalMark : List Char → List Char
  | '$' :: '/' :: rest => rest
  | text => text

/-- The type-style name of a method: its path segments, capitalized and joined. -/
def ofMethod (method : String) : String :=
  String.join ((pieces '/' (dropOptionalMark method.toList)).map fun segment =>
    capitalize (String.ofList segment))

end ProtocolCodegen.Name
