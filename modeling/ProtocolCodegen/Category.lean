/-!
# Categories of base types

The base types of a schema fall into nine categories.  Which category a base type has is the same
for every target language; how a category is spelled is not.
-/

namespace ProtocolCodegen

/-- A category of base types. -/
inductive Category where
  /-- Strings, and all that is written as a string. -/
  | string
  /-- Whole numbers. -/
  | integer
  /-- Whole numbers that are not negative. -/
  | uinteger
  /-- Numbers with places after the point. -/
  | decimal
  /-- Truth values. -/
  | boolean
  /-- The null value. -/
  | null
  /-- Any data value. -/
  | any
  /-- Any object. -/
  | object
  /-- Any array. -/
  | array
  deriving DecidableEq, Repr, Inhabited

namespace Category

/-- The category of a base type. -/
def ofBaseType? : String → Option Category
  | "string" | "URI" | "DocumentUri" | "RegExp" => some .string
  | "integer" => some .integer
  | "uinteger" => some .uinteger
  | "decimal" => some .decimal
  | "boolean" => some .boolean
  | "null" => some .null
  | "LSPAny" => some .any
  | "LSPObject" => some .object
  | "LSPArray" => some .array
  | _ => none

/-- The name of a category. -/
def name : Category → String
  | .string => "string"
  | .integer => "integer"
  | .uinteger => "uinteger"
  | .decimal => "decimal"
  | .boolean => "boolean"
  | .null => "null"
  | .any => "any"
  | .object => "object"
  | .array => "array"

/-- Every category. -/
def all : List Category :=
  [.string, .integer, .uinteger, .decimal, .boolean, .null, .any, .object, .array]

/-- The category of a name. -/
def ofName? (name : String) : Option Category :=
  all.find? (·.name == name)

/-- Whether the values of a category are numbers. -/
def isNumeric : Category → Bool
  | .integer | .uinteger | .decimal => true
  | _ => false

/-- Whether the values of a category are not restricted further. -/
def isDynamic : Category → Bool
  | .any | .object | .array => true
  | _ => false

end Category
end ProtocolCodegen
