import ProtocolCodegen.Category
import ProtocolCodegen.Dictionary
import ProtocolCodegen.Name

/-!
# Target profiles

What lowering needs to know of a target language: how base types are spelled, how names are formed,
and which shapes the type system of the language lacks.
-/

namespace ProtocolCodegen

/-- How a target language spells the categories of base types. -/
structure BaseTypes where
  /-- The type that stands for a category. -/
  spellings : Dictionary Category String
  /-- The identifier that stands for a category in the names of composites. -/
  idents : Dictionary Category String
  /-- The type of what the language cannot express. -/
  anyType : String
  /-- The identifier of what the language cannot express. -/
  anyIdent : String
  deriving DecidableEq, Repr, Inhabited

namespace BaseTypes

/-- The type that stands for a category. -/
def spell (table : BaseTypes) (category : Category) : String :=
  (table.spellings.get? category).getD table.anyType

/-- The identifier that stands for a category: its own, or else its type. -/
def ident (table : BaseTypes) (category : Category) : String :=
  (table.idents.get? category).getD ((table.spellings.get? category).getD table.anyIdent)

end BaseTypes

/-- How the names of a schema become identifiers of a target language. -/
structure Naming where
  /-- What takes the place of a leading character. -/
  reserved : List (Char × String)
  /-- What the name of a union begins with. -/
  unionStart : String
  /-- What stands between the members in the name of a union. -/
  unionSeparator : String
  /-- What the name of a wrapped array in a map begins with. -/
  mapArrayStart : String
  /-- What the name of a wrapped array in a union begins with. -/
  arrayStart : String
  /-- What the name of a wrapped map in a union begins with. -/
  mapStart : String
  /-- What stands between key and value in the name of a wrapped map. -/
  wrapperSeparator : String
  /-- Identifier of an anonymous record. -/
  literalIdent : String
  /-- Identifier of a string constant. -/
  constantIdent : String
  /-- Identifier of a union within another name. -/
  unionIdent : String
  /-- Identifier of an intersection. -/
  intersectionIdent : String
  /-- Identifier of a tuple. -/
  tupleIdent : String
  deriving DecidableEq, Repr, Inhabited

namespace Naming

/-- The convention of a language that states none. -/
def standard : Naming where
  reserved := Name.defaultReserved
  unionStart := "Or_"
  unionSeparator := "_"
  mapArrayStart := "MapArray_"
  arrayStart := "ArrayOf_"
  mapStart := "MapOf_"
  wrapperSeparator := "_"
  literalIdent := "Literal"
  constantIdent := "String"
  unionIdent := "Union"
  intersectionIdent := "Intersection"
  tupleIdent := "Tuple"

/-- The identifier of a declared type. -/
def typeName (naming : Naming) (name : String) : String :=
  Name.exported naming.reserved name

/-- The name of a union of members. -/
def unionName (naming : Naming) (idents : List String) : String :=
  naming.unionStart ++ String.intercalate naming.unionSeparator idents

end Naming

/-- What lowering needs to know of a target language. -/
structure Profile where
  /-- Name of the profile. -/
  name : String
  /-- How base types are spelled. -/
  baseTypes : BaseTypes
  /-- How names are formed. -/
  naming : Naming
  /-- Declared types that are taken for a category of base types. -/
  overrides : Dictionary String Category
  /-- Whether an array cannot be the value of a map. -/
  wrapsMapArrays : Bool
  /-- Whether arrays and maps cannot be members of a union. -/
  wrapsUnionCollections : Bool
  /-- Whether the keys of a map must be scalars. -/
  scalarMapKeys : Bool
  deriving DecidableEq, Repr, Inhabited

namespace Profile

/-- The profile in which nothing is stated. -/
def standard : Profile where
  name := ""
  baseTypes := ⟨[], [], "Any", "Any"⟩
  naming := .standard
  overrides := []
  wrapsMapArrays := false
  wrapsUnionCollections := false
  scalarMapKeys := false

/-- A profile with further overrides, which replace those of the same names. -/
def withOverrides (profile : Profile) (overrides : Dictionary String Category) : Profile :=
  { profile with overrides := profile.overrides.putAll overrides }

end Profile
end ProtocolCodegen
