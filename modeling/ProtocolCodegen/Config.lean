import ProtocolCodegen.Json.Basic

/-!
# Configuration

What can be chosen for a generation, how it is read from a JSON object and written back.  Keys that
have no meaning are ignored, and so is a value of the wrong type.
-/

namespace ProtocolCodegen

/-- What happens when an output file exists already. -/
inductive OutputMode where
  /-- The run fails. -/
  | errorIfExists
  /-- The file is overwritten. -/
  | force
  deriving DecidableEq, Repr, Inhabited

namespace OutputMode

/-- The name of a mode. -/
def name : OutputMode → String
  | .errorIfExists => "error"
  | .force => "force"

/-- The mode of a name. -/
def ofName? : String → Option OutputMode
  | "error" => some .errorIfExists
  | "force" => some .force
  | _ => none

@[simp]
theorem ofName?_name (mode : OutputMode) : ofName? mode.name = some mode := by
  cases mode <;> rfl

end OutputMode

/-- How output files are written. -/
structure OutputConfig where
  /-- What happens when a file exists already. -/
  mode : OutputMode
  /-- Whether a file is replaced in one step. -/
  atomicWrite : Bool
  deriving DecidableEq, Repr, Inhabited

/-- What can be chosen for a generation. -/
structure Config where
  /-- Types to generate; none stands for all. -/
  types : List String
  /-- Whether the types that these refer to are generated as well. -/
  resolveDeps : Bool
  /-- Whether what is not stable yet is generated. -/
  includeProposed : Bool
  /-- Whether a client interface is generated. -/
  generateClient : Bool
  /-- Whether a server interface is generated. -/
  generateServer : Bool
  /-- Whether Go unions get marshalling methods. -/
  generateJson : Bool
  /-- Package of the generated file; empty for the default of the language. -/
  packageName : String
  /-- Go package of a generated proto file; empty for none. -/
  goPackage : String
  /-- Base types that take the place of schema types. -/
  typeOverrides : Dictionary String String
  /-- Whether the generated file says how it was generated. -/
  addGenerationComment : Bool
  /-- Name of the schema in that comment. -/
  source : String
  /-- Revision of the schema in that comment. -/
  ref : String
  /-- Commit of the schema in that comment. -/
  commitHash : String
  /-- Version of the protocol in that comment; empty for the one of the schema. -/
  lspVersion : String
  /-- How output files are written. -/
  output : OutputConfig
  deriving DecidableEq, Repr

/-- Why a value is not a configuration. -/
inductive ConfigError where
  /-- The value is not an object. -/
  | notObject
  /-- The name of an output mode does not exist. -/
  | unknownMode (mode : String)
  deriving DecidableEq, Repr

/-- What is said of a value that is not a configuration. -/
def ConfigError.message : ConfigError → String
  | .notObject => "the configuration is not an object"
  | .unknownMode mode => Text.quoted mode ++ " is not a valid OutputMode"

namespace Config

/-- The configuration in which nothing was chosen. -/
def defaults : Config where
  types := []
  resolveDeps := true
  includeProposed := false
  generateClient := true
  generateServer := true
  generateJson := true
  packageName := ""
  goPackage := ""
  typeOverrides := []
  addGenerationComment := true
  source := ""
  ref := ""
  commitHash := ""
  lspVersion := ""
  output := ⟨.errorIfExists, true⟩

instance : Inhabited Config := ⟨defaults⟩

/-- The text under a key, or the empty one. -/
def textField (fields : Dictionary String Json) (key : String) : String :=
  match fields.get? key with
  | some (.str value) => value
  | _ => ""

/-- The truth value under a key, or a default. -/
def flagField (fields : Dictionary String Json) (key : String) (default : Bool) : Bool :=
  ((fields.get? key).map Json.isTruthy).getD default

/-- The texts of an array. -/
def texts (items : List Json) : List String :=
  items.filterMap fun
    | .str value => some value
    | _ => none

/-- The texts of an object. -/
def textFields (fields : Dictionary String Json) : Dictionary String String :=
  fields.filterMap fun
    | (key, .str value) => some (key, value)
    | _ => none

/-- The output mode under its key, or the default one. -/
def readMode (fields : Dictionary String Json) : Except ConfigError OutputMode :=
  match fields.get? "mode" with
  | some (.str name) =>
      match OutputMode.ofName? name with
      | some mode => .ok mode
      | none => .error (.unknownMode name)
  | _ => .ok .errorIfExists

/-- How output files are written, according to the fields of a configuration. -/
def readOutput (fields : Dictionary String Json) : Except ConfigError OutputConfig :=
  match fields.get? "output" with
  | some (.obj output) => do
      let mode ← readMode output
      return { mode, atomicWrite := flagField output "atomic_write" true }
  | _ => .ok defaults.output

/-- The configuration of a value. -/
def ofJson : Json → Except ConfigError Config
  | .obj fields => do
      let output ← readOutput fields
      return {
        types := match Dictionary.get? "types" fields with
          | some (.arr items) => texts items
          | _ => []
        resolveDeps := flagField fields "resolve_deps" true
        includeProposed := flagField fields "include_proposed" false
        generateClient := flagField fields "generate_client" true
        generateServer := flagField fields "generate_server" true
        generateJson := flagField fields "generate_json" true
        packageName := textField fields "package_name"
        goPackage := textField fields "go_package"
        typeOverrides := match Dictionary.get? "type_overrides" fields with
          | some (.obj overrides) => textFields overrides
          | _ => []
        addGenerationComment := flagField fields "add_generation_comment" true
        source := textField fields "source"
        ref := textField fields "ref"
        commitHash := textField fields "commit_hash"
        lspVersion := textField fields "lsp_version"
        output
      }
  | _ => .error .notObject

/-- The value of a configuration. -/
def toJson (config : Config) : Json :=
  .obj [
    ("types", .arr (config.types.map .str)),
    ("resolve_deps", .bool config.resolveDeps),
    ("include_proposed", .bool config.includeProposed),
    ("generate_client", .bool config.generateClient),
    ("generate_server", .bool config.generateServer),
    ("generate_json", .bool config.generateJson),
    ("package_name", .str config.packageName),
    ("go_package", .str config.goPackage),
    ("type_overrides", .obj (config.typeOverrides.map fun (name, base) => (name, .str base))),
    ("add_generation_comment", .bool config.addGenerationComment),
    ("source", .str config.source),
    ("ref", .str config.ref),
    ("commit_hash", .str config.commitHash),
    ("lsp_version", .str config.lspVersion),
    ("output", .obj [
      ("mode", .str config.output.mode.name),
      ("atomic_write", .bool config.output.atomicWrite)])]

end Config
end ProtocolCodegen
