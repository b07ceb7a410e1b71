import ProtocolCodegen.Schema.Path

/-!
# Type nodes

The types of a protocol schema, as they are written in the document: nothing is resolved and nothing
is specific to a target language.  Every node knows where in the document it stands, which does not
count when two nodes are compared.
-/

namespace ProtocolCodegen

/-- The texts that describe a declaration. -/
structure Notes where
  /-- What the declaration is for. -/
  documentation : String
  /-- The version that introduced it. -/
  since : String
  /-- Why it should not be used any more, or nothing. -/
  deprecated : String
  deriving DecidableEq, Repr, Inhabited

/-- A property of a record, over the kind of its type. -/
structure Property (type : Type) where
  /-- Name of the property on the wire. -/
  name : String
  /-- Type of its values. -/
  type : type
  /-- Whether it can be absent. -/
  optional : Bool
  /-- Whether it is not stable yet. -/
  proposed : Bool
  /-- Its description. -/
  notes : Notes
  deriving DecidableEq, Repr, Inhabited

/-- A type of the schema. -/
inductive Node where
  /-- A base type such as a string or the null type. -/
  | base (source : Path) (name : String)
  /-- A declared type. -/
  | reference (source : Path) (name : String)
  /-- A list. -/
  | array (source : Path) (element : Node)
  /-- A dictionary. -/
  | map (source : Path) (key value : Node)
  /-- An anonymous record. -/
  | literal (source : Path) (properties : List (Property Node))
  /-- A single string. -/
  | constant (source : Path) (value : String)
  /-- One of several types. -/
  | union (source : Path) (members : List Node)
  /-- All of several types at once. -/
  | intersection (source : Path) (members : List Node)
  /-- A list of fixed length. -/
  | tuple (source : Path) (members : List Node)
  deriving Inhabited

namespace Node

/-- Where a node stands in the document. -/
def source : Node → Path
  | .base source _ | .reference source _ | .array source _ | .map source _ _
  | .literal source _ | .constant source _ | .union source _ | .intersection source _
  | .tuple source _ => source

/-- The tag of a node's kind in the document. -/
def kind : Node → String
  | .base .. => "base"
  | .reference .. => "reference"
  | .array .. => "array"
  | .map .. => "map"
  | .literal .. => "literal"
  | .constant .. => "stringLiteral"
  | .union .. => "or"
  | .intersection .. => "and"
  | .tuple .. => "tuple"

/-- Whether a node is the null type. -/
def isNull : Node → Bool
  | .base _ name => name == "null"
  | _ => false

/-- Whether the members of a union make a type optional: they are two, and the null type is one. -/
def areOptional (members : List Node) : Bool :=
  members.length == 2 && members.any isNull

/-- The type that the members of an optional union make optional. -/
def optionalOf? (members : List Node) : Option Node :=
  if areOptional members then members.find? (!·.isNull) else none

mutual

/-- Whether two nodes are the same type, wherever they stand. -/
def same : Node → Node → Bool
  | .base _ name, .base _ other => name == other
  | .reference _ name, .reference _ other => name == other
  | .array _ element, .array _ other => same element other
  | .map _ key value, .map _ otherKey otherValue => same key otherKey && same value otherValue
  | .literal _ properties, .literal _ others => sameProperties properties others
  | .constant _ value, .constant _ other => value == other
  | .union _ members, .union _ others => sameMembers members others
  | .intersection _ members, .intersection _ others => sameMembers members others
  | .tuple _ members, .tuple _ others => sameMembers members others
  | _, _ => false

/-- Whether two lists hold the same types in the same order. -/
def sameMembers : List Node → List Node → Bool
  | [], [] => true
  | member :: members, other :: others => same member other && sameMembers members others
  | _, _ => false

/-- Whether two lists hold the same properties in the same order. -/
def sameProperties : List (Property Node) → List (Property Node) → Bool
  | [], [] => true
  | ⟨name, type, optional, proposed, notes⟩ :: properties, other :: others =>
      name == other.name && same type other.type && optional == other.optional &&
        proposed == other.proposed && notes == other.notes && sameProperties properties others
  | _, _ => false

end

end Node
end ProtocolCodegen
