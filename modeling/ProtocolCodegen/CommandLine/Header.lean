import ProtocolCodegen.CommandLine.Arguments
import ProtocolCodegen.Files.FileStore

/-!
# The command in the header of a generated file

A generated file tells the command that made it: the operands, then every option that was chosen
differently from its default.  A value at which something stands is told by its last name alone, so
that the directories of the machine stay out of the file.
-/

namespace ProtocolCodegen.CommandLine

/-- The name of the command. -/
def commandName : String := "metamodel_to_code"

section Steps

variable {m : Type → Type} [Monad m] [FileStore m]

/-- How a value is told: by its last name if something stands there, otherwise as it is. -/
def told (value : String) : ExceptT FileError m String := do
  let path := FilePath.ofText value
  match ← ExceptT.mk (FileStore.kind path) with
  | some _ => return path.name
  | none => return value

/-- How an operand is told; an empty one is left out. -/
def toldOperand (value : Option String) : ExceptT FileError m (List String) :=
  match value with
  | none => return []
  | some value => if value = "" then return [] else return [← told value]

/-- How a setting is told; an absent or empty one is left out. -/
def toldSetting (setting : Setting) (value : Option String) : ExceptT FileError m (List String) :=
  match value with
  | none => return []
  | some value => if value = "" then return [] else return ["--" ++ setting.name, ← told value]

/-- How a switch is told. -/
def toldSwitch (switch : Switch) (given : Bool) : List String :=
  if given then ["--" ++ switch.name] else []

/-- The words of the command, given the absolute paths of the schema and the configuration. -/
def Invocation.words (invocation : Invocation) (path : FilePath) (config : Option FilePath) :
    ExceptT FileError m (List String) := do
  let languageName :=
    if invocation.languageName = defaultLanguage then none else some invocation.languageName
  let operands ← toldOperand (some path.text)
  let output ← toldOperand invocation.output
  let language ← toldSetting .language languageName
  let types ← toldSetting .types invocation.types
  let package ← toldSetting .package invocation.package
  let config ← toldSetting .config (config.map FilePath.text)
  return operands ++ output ++ language ++ types ++
    toldSwitch .proposed invocation.proposed ++
    toldSwitch .noResolveDeps (invocation.resolveDeps == some false) ++
    package ++ config ++
    toldSwitch .force invocation.force ++
    toldSwitch .dryRun invocation.dryRun ++
    toldSwitch .verbose invocation.verbose

/-- The command as the header of a generated file tells it. -/
def Invocation.commandText (invocation : Invocation) (path : FilePath)
    (config : Option FilePath) : ExceptT FileError m String := do
  return String.intercalate " " (commandName :: (← invocation.words path config))

end Steps
end ProtocolCodegen.CommandLine
