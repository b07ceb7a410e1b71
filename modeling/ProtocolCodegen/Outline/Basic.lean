import ProtocolCodegen.Composite
import ProtocolCodegen.Json.Basic
import ProtocolCodegen.Schema.Model

/-!
# Outlines

An outline is what is generated from a protocol, ready to be rendered: everything is selected,
records hold all their fields, every type is one that the target language can express, and names are
final.
-/

namespace ProtocolCodegen
namespace Outline

/-- A field of a class. -/
structure Field where
  /-- Name of the property on the wire. -/
  name : String
  /-- Type of its values; a field from elsewhere may lack one. -/
  type : Option Descriptor
  /-- Whether it can be absent. -/
  optional : Bool
  /-- Its description. -/
  notes : Notes
  /-- Name of the record that declares it. -/
  declaredIn : String
  deriving DecidableEq, Repr, Inhabited

/-- A class, one for every selected record. -/
structure Class where
  /-- Identifier of the class. -/
  name : String
  /-- Name of the record. -/
  originalName : String
  /-- Its fields, the inherited ones included. -/
  fields : List Field
  /-- Its description. -/
  notes : Notes
  deriving DecidableEq, Repr, Inhabited

/-- A member of an enumeration.  Its value is a data value, since outlines from elsewhere can hold
any. -/
structure Member where
  /-- Name of the member. -/
  name : String
  /-- Its value on the wire. -/
  value : Json
  /-- What it is for. -/
  documentation : String
  deriving Inhabited

/-- An enumeration. -/
structure Enum where
  /-- Identifier of the enumeration. -/
  name : String
  /-- Name in the schema. -/
  originalName : String
  /-- Category of its values. -/
  category : Category
  /-- Its members. -/
  members : List Member
  /-- Whether other values can occur. -/
  supportsCustomValues : Bool
  /-- Its description. -/
  notes : Notes
  deriving Inhabited

/-- Whether the values of an enumeration are strings. -/
def Enum.isString (declared : Enum) : Bool :=
  declared.category == .string

/-- A name for a type. -/
structure Alias where
  /-- Identifier of the alias. -/
  name : String
  /-- Name in the schema. -/
  originalName : String
  /-- The type it stands for; an alias from elsewhere may lack one. -/
  target : Option Descriptor
  /-- Its description. -/
  notes : Notes
  deriving DecidableEq, Repr, Inhabited

/-- A method of an interface. -/
structure Method where
  /-- Identifier of the method. -/
  name : String
  /-- Name on the wire. -/
  method : String
  /-- Who sends it. -/
  direction : String
  /-- Type of its parameters. -/
  params : Option Descriptor
  /-- Type of its answer. -/
  result : Option Descriptor
  /-- Whether it is not answered. -/
  isNotification : Bool
  /-- What it is for. -/
  documentation : String
  /-- The version that introduced it. -/
  since : String
  deriving DecidableEq, Repr, Inhabited

/-- Whether a server receives a method. -/
def Method.toServer (method : Method) : Bool :=
  method.direction == "clientToServer" || method.direction == "both"

/-- Whether a client receives a method. -/
def Method.toClient (method : Method) : Bool :=
  method.direction == "serverToClient" || method.direction == "both"

end Outline

/-- What is generated from a protocol. -/
structure Outline where
  /-- Version of the protocol. -/
  version : String
  /-- Classes in the order of their names. -/
  classes : List Outline.Class
  /-- Enumerations in the order of their names. -/
  enums : List Outline.Enum
  /-- Aliases in the order of their names. -/
  aliases : List Outline.Alias
  /-- Methods in the order of their names. -/
  methods : List Outline.Method
  /-- Definitions of composites in the order of their names. -/
  composites : List (String × Composite)
  /-- Lines that say how the file was generated. -/
  comment : List String
  deriving Inhabited

end ProtocolCodegen
