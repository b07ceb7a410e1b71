import ProtocolCodegen.CommandLine.Header
import ProtocolCodegen.Files.Output
import ProtocolCodegen.Generation
import ProtocolCodegen.Text.ControlSequence

/-!
# Running the command

The command reads a schema and a configuration, generates the files of a language, and prints or
writes them.  What it prints, what it logs and why it fails is its outcome.
-/

namespace ProtocolCodegen.CommandLine

/-- Why the command fails. -/
inductive CommandError where
  /-- The arguments are no use of the command. -/
  | usage (error : UsageError)
  /-- The file of the configuration is not a JSON document. -/
  | malformedConfig (path : FilePath)
  /-- The file holds no configuration. -/
  | config (path : FilePath) (error : ConfigError)
  /-- Nothing was generated. -/
  | generation (error : GenerationError)
  /-- A file cannot be read. -/
  | file (error : FileError)
  /-- The generated files were not written. -/
  | output (error : OutputError)
  deriving DecidableEq, Repr

namespace CommandError

/-- What is reported of an outline that cannot be rendered: only constants that the user wrote. -/
def ofRender? : RenderError → Option String
  | .notNumeral text => some (RenderError.notNumeral text).message
  | .wrongArity count => some (RenderError.wrongArity count).message
  | _ => none

/-- What is reported of files that were not written. -/
def ofOutput? : OutputError → Option String
  | .file (.alreadyExists path) => some (FileError.alreadyExists path).message
  | .file .zeroCharacter => some FileError.zeroCharacter.message
  | .file _ => none
  | error => some error.message

/-- What is reported to the user; a failure without a report is not one of the user's making. -/
def report? : CommandError → Option String
  | .usage error => some error.message
  | .malformedConfig path => some ("Invalid config file " ++ path.text)
  | .config _ .notObject => none
  | .config path error => some ("Invalid config file " ++ path.text ++ ": " ++ error.message)
  | .generation (.schema error) => some ("Invalid metaModel: " ++ error.message)
  | .generation (.override error) => some error.message
  | .generation (.command _) => none
  | .generation (.render error) => ofRender? error
  | .file _ => none
  | .output error => ofOutput? error

/-- The exit code of a failure: two for a wrong use of the command, otherwise one. -/
def exitCode : CommandError → Nat
  | .usage _ => 2
  | _ => 1

end CommandError

/-- What shows the texts of the command. -/
inductive Display where
  /-- A terminal, which obeys control sequences. -/
  | terminal
  /-- A file or a pipe, which is spared control sequences. -/
  | plain
  deriving DecidableEq, Repr

/-- A text as a display gets it. -/
def Display.shown (display : Display) (text : String) : String :=
  match display with
  | .terminal => text
  | .plain => Text.withoutControls text

/-- What comes of a run of the command. -/
structure Outcome where
  /-- The texts that are printed, one after the other. -/
  texts : List String
  /-- What is logged, or nothing if the user did not ask for a log. -/
  log : List Event
  /-- The files that were written. -/
  written : List Output.Written
  /-- Why the command fails, if it does. -/
  error : Option CommandError
  deriving DecidableEq, Repr

namespace Outcome

/-- The exit code of a run. -/
def exitCode (outcome : Outcome) : Nat :=
  match outcome.error with
  | none => 0
  | some error => error.exitCode

/-- What a run tells the user of its end: the files that were written, or else why the command
fails. -/
def notices (outcome : Outcome) : List String :=
  match outcome.error with
  | none => outcome.written.map fun file => "Wrote " ++ file.path.text
  | some error => error.report?.toList.map ("Error: " ++ ·)

/-- What a run prints on a display. -/
def stdout (outcome : Outcome) (display : Display) : String :=
  String.join (outcome.texts.map display.shown)

/-- What a run reports on a display beside its output: the log, which is shown as it is, and then
its notices. -/
def stderr (outcome : Outcome) (display : Display) : String :=
  String.join (outcome.log.map Event.line) ++ Text.unlines (outcome.notices.map display.shown)

/-- A run that only prints texts. -/
def printed (texts : List String) : Outcome where
  texts := texts
  log := []
  written := []
  error := none

/-- A run that fails before anything happens. -/
def failed (error : CommandError) : Outcome where
  texts := []
  log := []
  written := []
  error := some error

end Outcome

/-- The names of a list that commas separate; blanks around a name do not count. -/
def splitNames (text : String) : List String :=
  ((Text.splitOn ',' text).map Text.trim).filter (· != "")

/-- A text that was given, unless it is empty. -/
def given? (text : Option String) : Option String :=
  text.filter (· != "")

/-- The configuration in which the options that were given override those of a file. -/
def Invocation.configure (invocation : Invocation) (base : Config) (schemaName : String) :
    Config where
  types := ((given? invocation.types).map splitNames).getD base.types
  resolveDeps := invocation.resolveDeps.getD base.resolveDeps
  includeProposed := invocation.proposed || base.includeProposed
  generateClient := base.generateClient
  generateServer := base.generateServer
  generateJson := base.generateJson
  packageName := (given? invocation.package).getD base.packageName
  goPackage := base.goPackage
  typeOverrides := base.typeOverrides
  addGenerationComment := base.addGenerationComment
  source := if base.source = "" then schemaName else base.source
  ref := base.ref
  commitHash := base.commitHash
  lspVersion := base.lspVersion
  output := if invocation.force then { base.output with mode := .force } else base.output

/-- What the command prints of generated files: their contents, each under its name if there are
several. -/
def printedFiles (files : List (String × String)) : List String :=
  files.flatMap fun (name, content) =>
    if files.length > 1 then ["// " ++ name ++ "\n", content] else [content]

/-- The options and operands of the command. -/
def usageText : String :=
  Text.unlines [
    "Usage: " ++ commandName ++ " [OPTIONS] PATH [OUTPUT]",
    "",
    "  Generate typed source for PATH (a metaModel.json) into OUTPUT.",
    "",
    "Options:",
    "  -l, --language NAME               Target language",
    "  -t, --types NAMES                 Comma-separated type names to generate",
    "  --proposed                        Include proposed types and methods",
    "  --resolve-deps/--no-resolve-deps  Also generate the types that these reference",
    "  -p, --package NAME                Target package name",
    "  -c, --config PATH                 Configuration file",
    "  --force                           Overwrite existing output files",
    "  --dry-run                         Print the generated files",
    "  -v, --verbose                     Enable debug logging",
    "  --list-languages                  List the target languages",
    "  --help                            Show this message"]

section Steps

variable {m : Type → Type} [Monad m] [FileStore m]

/-- The path that an argument spells. -/
def pathOf (text : String) : ExceptT CommandError m FilePath :=
  let path := FilePath.ofText text
  if path.hasZero then throw (.file .zeroCharacter) else return path

/-- The absolute path of an argument, and what stands there. -/
def findPath (text : String) : ExceptT CommandError m (FilePath × EntryKind) := do
  let given ← pathOf text
  let path := FilePath.resolve (← ExceptT.lift FileStore.workingDirectory) given
  match ← ExceptT.lift (FileStore.kind path) with
  | .ok (some kind) => return (path, kind)
  | _ => throw (.usage (.missingFile text))

/-- The language of a name. -/
def findLanguage (name : String) : ExceptT CommandError m Language :=
  match Registry.standard.get? name with
  | some language => return language
  | none => throw (.usage (.unknownLanguage name))

/-- The absolute path of the configuration, if one is given. -/
def findConfig (text : Option String) : ExceptT CommandError m (Option FilePath) :=
  match text with
  | none => return none
  | some text => return some (← findPath text).1

/-- The language and the path of the configuration; what was given first is looked up first. -/
def Invocation.findSettings (invocation : Invocation) :
    ExceptT CommandError m (Language × Option FilePath) := do
  if invocation.configFirst then
    let config ← findConfig invocation.config
    return (← findLanguage invocation.languageName, config)
  else
    let language ← findLanguage invocation.languageName
    return (language, ← findConfig invocation.config)

/-- The absolute path of the schema. -/
def findSchema (text : Option String) : ExceptT CommandError m FilePath := do
  match text with
  | none => throw (.usage .noPath)
  | some text =>
      match ← findPath text with
      | (path, .file) => return path
      | (_, .directory) => throw (.usage (.notFile text))

/-- The absolute path of the schema.  The operands after it must be no more than an output, which
must be a path. -/
def Invocation.findOperands (invocation : Invocation) : ExceptT CommandError m FilePath := do
  let path ← findSchema invocation.path
  match invocation.output with
  | none => pure ()
  | some output => discard (pathOf output)
  match invocation.surplus with
  | [] => return path
  | text :: _ => throw (.usage (.extraOperand text))

/-- The content of a file that the command needs. -/
def readFile (path : FilePath) : ExceptT CommandError m ByteArray := do
  match ← ExceptT.lift (FileStore.read path) with
  | .ok content => return content
  | .error error => throw (.file error)

/-- The configuration of a file. -/
def readConfig (path : FilePath) : ExceptT CommandError m Config := do
  match (String.fromUTF8? (← readFile path)).bind Json.ofText? with
  | none => throw (.malformedConfig path)
  | some value =>
      match Config.ofJson value with
      | .ok config => return config
      | .error error => throw (.config path error)

/-- What an invocation generates, and the configuration for it. -/
def Invocation.generation (invocation : Invocation) :
    ExceptT CommandError m (Config × Generation) := do
  let (language, configPath) ← invocation.findSettings
  let path ← invocation.findOperands
  let base ← match configPath with
    | none => pure Config.defaults
    | some configPath => readConfig configPath
  let config := invocation.configure base path.name
  let document := Model.ofBytes (← readFile path)
  let command ← ExceptT.lift (invocation.commandText path configPath).run
  return (config, generateFrom config language invocation.languageName document command)

/-- Prints generated files or writes them to the output. -/
def Invocation.deliver (invocation : Invocation) (config : Config)
    (files : List (String × String)) (log : List Event) : m Outcome := do
  match invocation.output, invocation.dryRun with
  | some output, false =>
      let report ← Output.writeAll (files.map fun (name, text) => (name, text.toUTF8)) output
        config.output
      let wrote := report.written.map fun file => Event.wrote file.path.text file.size
      return {
        texts := []
        log := if invocation.verbose then log ++ wrote else []
        written := report.written
        error := match report.result with
          | .ok () => none
          | .error error => some (.output error)
      }
  | _, _ => return { Outcome.printed (printedFiles files) with log := log }

/-- Runs an invocation. -/
def Invocation.run (invocation : Invocation) : m Outcome := do
  match ← invocation.generation.run with
  | .error error => return .failed error
  | .ok (config, generation) =>
      let log := if invocation.verbose then generation.events else []
      match generation.result with
      | .error error => return { Outcome.failed (.generation error) with log := log }
      | .ok generated => invocation.deliver config generated.files log

/-- The answer to a request for a list. -/
def inquiryText : Switch → String
  | .listLanguages => Text.unlines Registry.standard.names
  | _ => usageText

/-- Runs the command with arguments. -/
def run (arguments : List String) : m Outcome := do
  match Item.ofArguments arguments with
  | .error error => return .failed (.usage error)
  | .ok items =>
      match items.findSome? Item.inquiry? with
      | some inquiry => return .printed [inquiryText inquiry]
      | none => (Invocation.ofItems items).run

end Steps
end ProtocolCodegen.CommandLine
