import ProtocolCodegen.Schema.Node

/-!
# Protocol models

A protocol: its records, enumerations and type aliases, and the methods that exchange them.
Declarations stand in the order of the document, and several can have one name.
-/

namespace ProtocolCodegen

/-- A named record.  Its parents and mixins only lend their properties. -/
structure Structure where
  /-- Name of the record. -/
  name : String
  /-- Properties of its own. -/
  properties : List (Property Node)
  /-- Records it extends. -/
  parents : List Node
  /-- Records it mixes in. -/
  mixins : List Node
  /-- Whether it is not stable yet. -/
  proposed : Bool
  /-- Its description. -/
  notes : Notes
  deriving Inhabited

/-- The value of an enumeration on the wire. -/
inductive Constant where
  /-- A string. -/
  | text (value : String)
  /-- A whole number. -/
  | int (value : Int)
  /-- Any other number. -/
  | float (value : Binary64)
  deriving DecidableEq, Repr, Inhabited

/-- The data value of a constant. -/
def Constant.toJson : Constant → Json
  | .text value => .str value
  | .int value => .int value
  | .float value => .float value

/-- A named value of an enumeration. -/
structure EnumValue where
  /-- Name of the value. -/
  name : String
  /-- The value on the wire. -/
  value : Constant
  /-- Whether it is not stable yet. -/
  proposed : Bool
  /-- What the value is for. -/
  documentation : String
  /-- The version that introduced it. -/
  since : String
  deriving DecidableEq, Repr, Inhabited

/-- A set of named values. -/
structure Enumeration where
  /-- Name of the enumeration. -/
  name : String
  /-- Type of its values. -/
  type : Option Node
  /-- Its values. -/
  values : List EnumValue
  /-- Whether other values can occur. -/
  supportsCustomValues : Bool
  /-- Whether it is not stable yet. -/
  proposed : Bool
  /-- Its description. -/
  notes : Notes
  deriving Inhabited

/-- A name for a type. -/
structure TypeAlias where
  /-- The name. -/
  name : String
  /-- The type it stands for. -/
  type : Option Node
  /-- Whether it is not stable yet. -/
  proposed : Bool
  /-- Its description. -/
  notes : Notes
  deriving Inhabited

/-- A method that is answered. -/
structure Request where
  /-- Name of the method on the wire. -/
  method : String
  /-- Who sends it. -/
  direction : String
  /-- Type of its parameters. -/
  params : Option Node
  /-- Type of its answer. -/
  result : Option Node
  /-- Type of the parts in which an answer can come. -/
  partialResult : Option Node
  /-- Type of the data of an error. -/
  errorData : Option Node
  /-- The method under which a client registers for it. -/
  registrationMethod : String
  /-- Type of the options of that registration. -/
  registrationOptions : Option Node
  /-- Whether it is not stable yet. -/
  proposed : Bool
  /-- Its description. -/
  notes : Notes
  deriving Inhabited

/-- A method that is not answered. -/
structure Notification where
  /-- Name of the method on the wire. -/
  method : String
  /-- Who sends it. -/
  direction : String
  /-- Type of its parameters. -/
  params : Option Node
  /-- The method under which a client registers for it. -/
  registrationMethod : String
  /-- Type of the options of that registration. -/
  registrationOptions : Option Node
  /-- Whether it is not stable yet. -/
  proposed : Bool
  /-- Its description. -/
  notes : Notes
  deriving Inhabited

/-- A protocol. -/
structure Model where
  /-- Version of the protocol. -/
  version : String
  /-- Methods that are answered. -/
  requests : List Request
  /-- Methods that are not answered. -/
  notifications : List Notification
  /-- Records. -/
  structures : List Structure
  /-- Enumerations. -/
  enumerations : List Enumeration
  /-- Names for types. -/
  aliases : List TypeAlias
  deriving Inhabited

namespace Model

/-- The first record of a name. -/
def structure? (model : Model) (name : String) : Option Structure :=
  model.structures.find? (·.name == name)

/-- The first enumeration of a name. -/
def enumeration? (model : Model) (name : String) : Option Enumeration :=
  model.enumerations.find? (·.name == name)

/-- The first alias of a name. -/
def alias? (model : Model) (name : String) : Option TypeAlias :=
  model.aliases.find? (·.name == name)

/-- The record that a name stands for: of several the last one. -/
def declaredStructure? (model : Model) (name : String) : Option Structure :=
  model.structures.reverse.find? (·.name == name)

/-- The alias that a name stands for: of several the last one. -/
def declaredAlias? (model : Model) (name : String) : Option TypeAlias :=
  model.aliases.reverse.find? (·.name == name)

/-- Every declared name and whether its declaration is proposed; of several the last one counts, and
records come before enumerations and these before aliases. -/
def proposedFlags (model : Model) : Dictionary String Bool :=
  Dictionary.ofList <|
    model.structures.map (fun declared => (declared.name, declared.proposed)) ++
    model.enumerations.map (fun declared => (declared.name, declared.proposed)) ++
    model.aliases.map (fun declared => (declared.name, declared.proposed))

/-- Whether a name is declared as proposed. -/
def isProposed (model : Model) (name : String) : Bool :=
  (model.proposedFlags.get? name).getD false

/-- Whether a name is declared at all. -/
def isDeclared (model : Model) (name : String) : Bool :=
  model.proposedFlags.hasKey name

end Model
end ProtocolCodegen
