import ProtocolCodegen.Target.Go.File
import ProtocolCodegen.Target.Kotlin.File
import ProtocolCodegen.Target.Proto.File

/-!
# Target languages

The languages in which a protocol can be generated, and the registry that knows them by name.
-/

namespace ProtocolCodegen

/-- A language in which a protocol can be generated. -/
inductive Language where
  /-- Structs, typed constants and interfaces. -/
  | go
  /-- Data classes, enum classes and sealed classes. -/
  | kotlin
  /-- Messages, enums and oneofs of proto3. -/
  | proto
  deriving DecidableEq, Repr, Inhabited

namespace Language

/-- The name of a language. -/
def name : Language → String
  | .go => "go"
  | .kotlin => "kotlin"
  | .proto => "proto"

/-- What lowering needs to know of a language. -/
def profile : Language → Profile
  | .go => Go.profile
  | .kotlin => Kotlin.profile
  | .proto => Proto.profile

/-- The name of the generated file. -/
def fileName : Language → String
  | .go => "protocol.go"
  | .kotlin => "protocol.kt"
  | .proto => "protocol.proto"

/-- Whether methods are generated. -/
def rendersMethods : Language → Bool
  | .go | .kotlin => true
  | .proto => false

/-- The package of a file. -/
def packageName (config : Config) : Language → String
  | .go => Go.packageName config
  | .kotlin => Kotlin.packageName config
  | .proto => Proto.packageName config

/-- The name of a field. -/
def fieldName (name : String) : Language → String
  | .go => Go.fieldName name
  | .kotlin => Kotlin.fieldName name
  | .proto => Proto.fieldName name

/-- The type of a descriptor that may be missing; aliases matter to proto alone. -/
def typeText (aliases : Proto.AliasTable) (descriptor : Option Descriptor) :
    Language → Except RenderError String
  | .go => Go.typeTextOf descriptor
  | .kotlin => Kotlin.typeTextOf descriptor
  | .proto => Proto.fieldTextOf aliases descriptor

/-- The file of an outline. -/
def fileText (config : Config) (outline : Outline) : Language → Rendering String
  | .go => Go.fileText config outline
  | .kotlin => Kotlin.fileText config outline
  | .proto => Proto.fileText config outline

end Language

/-- The languages that can be asked for, by name. -/
abbrev Registry := Dictionary String Language

/-- Why a registry refuses. -/
inductive RegistryError where
  /-- There is no language of the name among the available ones. -/
  | unknown (name : String) (available : List String)
  /-- There is a language of the name already. -/
  | taken (name : String)
  deriving DecidableEq, Repr

/-- What is said when a registry refuses. -/
def RegistryError.message : RegistryError → String
  | .unknown name available =>
      "Unknown language " ++ Text.quoted name ++ " (available: " ++
        String.intercalate ", " available ++ ")"
  | .taken name => "Backend already registered for language " ++ Text.quoted name

namespace Registry

/-- The registry of the three languages. -/
def standard : Registry :=
  [("go", .go), ("kotlin", .kotlin), ("proto", .proto)]

/-- The names in order. -/
def names (registry : Registry) : List String :=
  Text.sorted registry.keys

/-- The language of a name. -/
def find (registry : Registry) (name : String) : Except RegistryError Language :=
  match registry.get? name with
  | some language => .ok language
  | none => .error (.unknown name registry.names)

/-- The registry in which a free name has a language. -/
def register (registry : Registry) (name : String) (language : Language) :
    Except RegistryError Registry :=
  if registry.hasKey name then .error (.taken name) else .ok (registry.put name language)

end Registry
end ProtocolCodegen
