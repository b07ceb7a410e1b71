import ProtocolCodegen.Dictionary
import ProtocolCodegen.Number.Shortest
import ProtocolCodegen.Text.Quoted

/-!
# Data values

The values of a JSON document.  A number written as a whole number is exact; every other number is a
floating-point number.  Objects keep the order of their keys.
-/

namespace ProtocolCodegen

/-- A value of a JSON document. -/
inductive Json where
  /-- The null value. -/
  | null
  /-- A truth value. -/
  | bool (value : Bool)
  /-- A number without fraction and exponent. -/
  | int (value : Int)
  /-- A number with fraction or exponent, or one of the three names of special numbers. -/
  | float (value : Binary64)
  /-- A text. -/
  | str (value : String)
  /-- A list of values. -/
  | arr (items : List Json)
  /-- Values under keys. -/
  | obj (fields : List (String × Json))
  deriving Inhabited

namespace Json

/-- The name of a value's type in messages. -/
def typeName : Json → String
  | .null => "NoneType"
  | .bool _ => "bool"
  | .int _ => "int"
  | .float _ => "float"
  | .str _ => "str"
  | .arr _ => "list"
  | .obj _ => "dict"

/-- Whether a value counts as true: all do but null, false, the zeros and what is empty. -/
def isTruthy : Json → Bool
  | .null => false
  | .bool value => value
  | .int value => value != 0
  | .float value => !value.isZero
  | .str value => value != ""
  | .arr items => !items.isEmpty
  | .obj fields => !fields.isEmpty

/-- The value under a key of an object. -/
def field? (key : String) : Json → Option Json
  | .obj fields => Dictionary.get? key fields
  | _ => none

/-- The value at an index of an array. -/
def item? (index : Nat) : Json → Option Json
  | .arr items => items[index]?
  | _ => none

mutual

/-- A value as it is shown inside another one. -/
def display : Json → String
  | .null => "None"
  | .bool value => if value then "True" else "False"
  | .int value => toString value
  | .float value => value.text
  | .str value => Text.quoted value
  | .arr items => "[" ++ String.intercalate ", " (displayItems items) ++ "]"
  | .obj fields => "\x7b" ++ String.intercalate ", " (displayFields fields) ++ "\x7d"

/-- The displayed items of an array. -/
def displayItems : List Json → List String
  | [] => []
  | item :: rest => item.display :: displayItems rest

/-- The displayed entries of an object. -/
def displayFields : List (String × Json) → List String
  | [] => []
  | (key, value) :: rest => (Text.quoted key ++ ": " ++ value.display) :: displayFields rest

end

/-- A value as it is written into a text: a text stands for itself. -/
def text : Json → String
  | .str value => value
  | value => value.display

end Json
end ProtocolCodegen
