import ProtocolCodegen.Files.FileStore
import ProtocolCodegen.Outline.Analysis
import ProtocolCodegen.Schema.Closure
import ProtocolCodegen.Schema.Reader
import ProtocolCodegen.Target.Language

/-!
# Generation

From a protocol to the files of a target language: the requested types are closed under references,
the protocol is analyzed with an empty ledger, and the outline is rendered.  What happened on the
way is told whether or not the generation succeeds.
-/

namespace ProtocolCodegen

/-- Why nothing was generated. -/
inductive GenerationError where
  /-- The document is not a schema. -/
  | schema (error : SchemaError)
  /-- A type override names no base type. -/
  | override (error : OverrideError)
  /-- The command that asked for the generation cannot be told. -/
  | command (error : FileError)
  /-- The outline cannot be rendered. -/
  | render (error : RenderError)
  deriving DecidableEq, Repr

/-- What was generated. -/
structure Generated where
  /-- The names that were generated; absent for all. -/
  selection : Option (List String)
  /-- Contents of the files under their names. -/
  files : List (String × String)
  deriving DecidableEq, Repr

/-- A generation: what happened, earliest first, and what came of it. -/
structure Generation where
  /-- What happened, earliest first. -/
  events : List Event
  /-- What was generated, or why nothing was. -/
  result : Except GenerationError Generated

/-- The version of the generator. -/
def generatorVersion : String := "1.0.1"

/-- The profile of a language with the type overrides of a configuration. -/
def Config.profile (config : Config) (base : Profile) : Except OverrideError Profile := do
  return base.withOverrides (← config.overrideCategories)

/-- The names that a configuration selects, and what is told of them, latest first. -/
def Config.selection (config : Config) (model : Model) : Option (List String) × List Event :=
  if config.types.isEmpty then
    (none, [])
  else if !config.resolveDeps then
    (some config.types.eraseDups, [])
  else
    let requested := config.types.eraseDups
    let resolver := Resolver.ofModel model config.includeProposed
    let names := resolver.resolve requested []
    let undeclared := (resolver.undeclared names).map Event.undeclared
    (some names, .resolved requested.length names.length :: undeclared.reverse)

/-- A line of the comment on the generation, unless the text is empty. -/
def commentLine (title text : String) : List String :=
  if text = "" then [] else [title ++ ": " ++ text]

/-- The comment on the generation that a file begins with. -/
def Config.comment (config : Config) (version : String) (command : Except FileError String) :
    Except FileError (List String) := do
  if config.addGenerationComment then
    let command ← command
    return ["Code generated by metamodel_to_code v" ++ generatorVersion ++ ". DO NOT EDIT."] ++
      commentLine "Source" config.source ++
      commentLine "Ref" config.ref ++
      commentLine "Commit" config.commitHash ++
      commentLine "LSP Version" (if config.lspVersion = "" then version else config.lspVersion) ++
      ["Command: " ++ command]
  else
    return []

/-- The outline of a protocol for a language, the names that were selected, and the ledger. -/
def Config.outline (config : Config) (language : Language) (profile : Profile) (model : Model) :
    Outline × Option (List String) × Ledger :=
  let (selection, events) := config.selection model
  let analyzer := Analyzer.ofModel model profile config.includeProposed selection
  let (outline, ledger) := analyzer.analyze language.rendersMethods ⟨[], events⟩
  (outline, selection, ledger)

/-- Generates the files of a language from a protocol; `command` is the command that asked for it,
unless it cannot be told. -/
def generate (config : Config) (language : Language) (languageName : String) (model : Model)
    (command : Except FileError String) : Generation :=
  match config.profile language.profile with
  | .error error => ⟨[], .error (.override error)⟩
  | .ok profile =>
      let (outline, selection, ledger) := config.outline language profile model
      match config.comment model.version command with
      | .error error => ⟨ledger.events.reverse, .error (.command error)⟩
      | .ok comment =>
          match (language.fileText config { outline with comment }).result with
          | .error error => ⟨ledger.events.reverse, .error (.render error)⟩
          | .ok text =>
              { events := (ledger.log
                  (.generated [language.fileName] languageName model.version)).events.reverse
                result := .ok ⟨selection, [(language.fileName, text)]⟩ }

/-- Generates the files of a language from a document. -/
def generateFrom (config : Config) (language : Language) (languageName : String)
    (document : Reading Model) (command : Except FileError String) : Generation :=
  match document with
  | .ok model => generate config language languageName model command
  | .error error => ⟨[], .error (.schema error)⟩

end ProtocolCodegen
