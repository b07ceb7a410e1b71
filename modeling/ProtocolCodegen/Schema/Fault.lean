import ProtocolCodegen.Schema.Path

/-!
# Faults of a schema document

Why a document is not a schema, where, and in which words that is reported.
-/

namespace ProtocolCodegen

/-- Why a document is not a schema. -/
inductive Fault where
  /-- The document is not well-formed JSON. -/
  | malformed
  /-- The document is not an object. -/
  | documentNotObject (found : String)
  /-- The data about the document is not an object. -/
  | metaDataNotObject
  /-- A section of the document is not an array. -/
  | sectionNotArray
  /-- Something else stands in the place of an object. -/
  | notObject (found : String)
  /-- Something else stands in the place of an array. -/
  | notArray (found : String)
  /-- Something else stands in the place of a string. -/
  | notString (found : String)
  /-- A type has no kind. -/
  | noKind
  /-- A type has a kind that does not exist. -/
  | unknownKind (kind : String)
  /-- An array type has no element type. -/
  | noElement
  /-- A map type lacks its key or its value type. -/
  | noKeyOrValue
  /-- The value of a string constant is not a string. -/
  | constantNotString
  /-- A property has no type. -/
  | noType
  /-- The value of an enumeration is neither a string nor a number. -/
  | valueNotScalar
  /-- The value of an enumeration of integers is not a whole number. -/
  | valueNotWhole (value : Binary64)
  deriving DecidableEq, Repr

/-- What is said of a fault. -/
def Fault.message : Fault → String
  | .malformed => "invalid JSON"
  | .documentNotObject found => "expected a JSON object, got " ++ found
  | .metaDataNotObject => "expected an object"
  | .sectionNotArray => "expected an array"
  | .notObject found => "expected an object, got " ++ found
  | .notArray found => "expected an array, got " ++ found
  | .notString found => "expected a string, got " ++ found
  | .noKind => "type node has no kind"
  | .unknownKind kind => "unknown type kind: " ++ Text.quoted kind
  | .noElement => "array type has no element"
  | .noKeyOrValue => "map type needs both key and value"
  | .constantNotString => "string literal value must be a string"
  | .noType => "property has no type"
  | .valueNotScalar => "enum value must be a string or a number"
  | .valueNotWhole value => "integer enum value must be integral, got " ++ value.text

/-- A fault at a place. -/
structure SchemaError where
  /-- The fault. -/
  fault : Fault
  /-- Where it is; the empty name stands for the document as a whole. -/
  path : Path
  deriving DecidableEq, Repr

/-- What is said of a fault at a place. -/
def SchemaError.message (error : SchemaError) : String :=
  let place := error.path.text
  if place = "" then error.fault.message else place ++ ": " ++ error.fault.message

end ProtocolCodegen
