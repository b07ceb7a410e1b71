import ProtocolCodegen.Target.Language
import ProtocolCodegen.Text.Lines

/-!
# Arguments of the command

Settings take a value and switches take none.  A long option follows two dashes and can be joined to
its value by an equals sign; one-letter options follow a single dash and can share it, and what
follows the letter of a setting is its value.  Two dashes alone end the options, and everything else
is an operand.
-/

namespace ProtocolCodegen.CommandLine

/-- An option that takes a value. -/
inductive Setting where
  /-- The target language. -/
  | language
  /-- The types to generate. -/
  | types
  /-- The package of the generated file. -/
  | package
  /-- The file with the configuration. -/
  | config
  deriving DecidableEq, Repr

/-- An option that takes no value. -/
inductive Switch where
  /-- What is not stable yet is generated. -/
  | proposed
  /-- The types that the given ones refer to are generated. -/
  | resolveDeps
  /-- Only the given types are generated. -/
  | noResolveDeps
  /-- Existing files are overwritten. -/
  | force
  /-- The generated files are printed and not written. -/
  | dryRun
  /-- What happens is logged. -/
  | verbose
  /-- The languages are listed and nothing is generated. -/
  | listLanguages
  /-- The options are listed and nothing is generated. -/
  | help
  deriving DecidableEq, Repr

/-- An option of the command. -/
inductive Flag where
  /-- An option that takes a value. -/
  | setting (setting : Setting)
  /-- An option that takes no value. -/
  | switch (switch : Switch)
  deriving DecidableEq, Repr

/-- The long name of a setting. -/
def Setting.name : Setting → String
  | .language => "language"
  | .types => "types"
  | .package => "package"
  | .config => "config"

/-- The long name of a switch. -/
def Switch.name : Switch → String
  | .proposed => "proposed"
  | .resolveDeps => "resolve-deps"
  | .noResolveDeps => "no-resolve-deps"
  | .force => "force"
  | .dryRun => "dry-run"
  | .verbose => "verbose"
  | .listLanguages => "list-languages"
  | .help => "help"

/-- The long name of an option. -/
def Flag.name : Flag → String
  | .setting option => option.name
  | .switch option => option.name

/-- The option of a long name. -/
def Flag.ofName? : String → Option Flag
  | "language" => some (.setting .language)
  | "types" => some (.setting .types)
  | "package" => some (.setting .package)
  | "config" => some (.setting .config)
  | "proposed" => some (.switch .proposed)
  | "resolve-deps" => some (.switch .resolveDeps)
  | "no-resolve-deps" => some (.switch .noResolveDeps)
  | "force" => some (.switch .force)
  | "dry-run" => some (.switch .dryRun)
  | "verbose" => some (.switch .verbose)
  | "list-languages" => some (.switch .listLanguages)
  | "help" => some (.switch .help)
  | _ => none

/-- The option of a letter. -/
def Flag.ofLetter? : Char → Option Flag
  | 'l' => some (.setting .language)
  | 't' => some (.setting .types)
  | 'p' => some (.setting .package)
  | 'c' => some (.setting .config)
  | 'v' => some (.switch .verbose)
  | _ => none

@[simp]
theorem Flag.ofName?_name (flag : Flag) : Flag.ofName? flag.name = some flag := by
  rcases flag with ⟨⟨⟩⟩ | ⟨⟨⟩⟩ <;> rfl

/-- Why the arguments are no use of the command. -/
inductive UsageError where
  /-- There is no such option. -/
  | unknownOption (option : String)
  /-- A setting has no value. -/
  | noValue (setting : Setting)
  /-- A switch has a value. -/
  | valueOfSwitch (switch : Switch)
  /-- There is no such language. -/
  | unknownLanguage (name : String)
  /-- There is no schema among the arguments. -/
  | noPath
  /-- There are more than two operands. -/
  | extraOperand (text : String)
  /-- Nothing stands at a path. -/
  | missingFile (path : String)
  /-- A directory stands where the schema is expected. -/
  | notFile (path : String)
  deriving DecidableEq, Repr

/-- What is said of arguments that are no use of the command. -/
def UsageError.message : UsageError → String
  | .unknownOption option => "No such option: " ++ option
  | .noValue setting => "Option --" ++ setting.name ++ " requires a value."
  | .valueOfSwitch switch => "Option --" ++ switch.name ++ " does not take a value."
  | .unknownLanguage name => "There is no language " ++ Text.quoted name ++ "."
  | .noPath => "The path of a schema is missing."
  | .extraOperand text => "Got unexpected extra argument: " ++ text
  | .missingFile path => "Path " ++ Text.quoted path ++ " does not exist."
  | .notFile path => "File " ++ Text.quoted path ++ " is a directory."

/-- What one or two arguments say. -/
inductive Item where
  /-- A setting has a value. -/
  | setting (setting : Setting) (value : String)
  /-- A switch is given. -/
  | switch (switch : Switch)
  /-- A text that belongs to no option. -/
  | operand (text : String)
  deriving DecidableEq, Repr

namespace Item

/-- What an argument with options says, and the setting whose value is the next argument. -/
abbrev Reading := List Item × Option Setting

/-- Reads the text of an option after its two dashes. -/
def ofLong (text : List Char) : Except UsageError Reading :=
  let name := String.ofList (text.takeWhile (· != '='))
  match Flag.ofName? name, text.dropWhile (· != '=') with
  | none, _ => .error (.unknownOption ("--" ++ name))
  | some (.switch option), [] => .ok ([.switch option], none)
  | some (.switch option), _ :: _ => .error (.valueOfSwitch option)
  | some (.setting option), [] => .ok ([], some option)
  | some (.setting option), _ :: value => .ok ([.setting option (String.ofList value)], none)

/-- Reads the letters of options after their dash. -/
def ofLetters : List Char → Except UsageError Reading
  | [] => .ok ([], none)
  | letter :: rest =>
      match Flag.ofLetter? letter with
      | none => .error (.unknownOption (String.ofList ['-', letter]))
      | some (.switch option) => do
          let (items, pending) ← ofLetters rest
          return (.switch option :: items, pending)
      | some (.setting option) =>
          if rest.isEmpty then .ok ([], some option)
          else .ok ([.setting option (String.ofList rest)], none)

/-- Reads an argument. -/
def ofArgument (argument : String) : Except UsageError Reading :=
  match argument.toList with
  | '-' :: '-' :: rest => ofLong rest
  | '-' :: letter :: rest => ofLetters (letter :: rest)
  | _ => .ok ([.operand argument], none)

/-- Reads the arguments of the command. -/
def ofArguments : List String → Except UsageError (List Item)
  | [] => .ok []
  | argument :: rest =>
      if argument = "--" then .ok (rest.map .operand)
      else
        match ofArgument argument, rest with
        | .error error, _ => .error error
        | .ok (items, none), rest => (items ++ ·) <$> ofArguments rest
        | .ok (_, some option), [] => .error (.noValue option)
        | .ok (items, some option), value :: rest =>
            (items ++ .setting option value :: ·) <$> ofArguments rest

/-- The value that an item gives to a setting. -/
def valueOf? (option : Setting) : Item → Option String
  | .setting other value => if other = option then some value else none
  | _ => none

/-- Whether an item gives the configuration, if it gives that or the language. -/
def givesConfig? : Item → Option Bool
  | .setting .config _ => some true
  | .setting .language _ => some false
  | _ => none

/-- What an item says of resolving dependencies. -/
def resolveDeps? : Item → Option Bool
  | .switch .resolveDeps => some true
  | .switch .noResolveDeps => some false
  | _ => none

/-- The text of an operand. -/
def operand? : Item → Option String
  | .operand text => some text
  | _ => none

/-- The switch of an item that asks for a list instead of a generation. -/
def inquiry? : Item → Option Switch
  | .switch .listLanguages => some .listLanguages
  | .switch .help => some .help
  | _ => none

end Item

/-- The language that is generated unless another one is given. -/
def defaultLanguage : String := "kotlin"

/-- A use of the command that asks for a generation.  Whether its values are any good is not known
yet. -/
structure Invocation where
  /-- The name of the target language. -/
  languageName : String
  /-- The types to generate, as they were given. -/
  types : Option String
  /-- Whether what is not stable yet is generated. -/
  proposed : Bool
  /-- Whether dependencies are generated, if that was given. -/
  resolveDeps : Option Bool
  /-- The package of the generated file. -/
  package : Option String
  /-- The path of the configuration, as it was given. -/
  config : Option String
  /-- Whether the configuration was given before the language. -/
  configFirst : Bool
  /-- Whether existing files are overwritten. -/
  force : Bool
  /-- Whether the generated files are only printed. -/
  dryRun : Bool
  /-- Whether what happens is logged. -/
  verbose : Bool
  /-- The path of the schema, as it was given. -/
  path : Option String
  /-- The path of the output, as it was given. -/
  output : Option String
  /-- The operands beside these two. -/
  surplus : List String
  deriving DecidableEq, Repr

/-- The use of the command that items make; of several values of a setting the last one counts. -/
def Invocation.ofItems (items : List Item) : Invocation :=
  let value (option : Setting) : Option String := items.reverse.findSome? (Item.valueOf? option)
  let given (option : Switch) : Bool := items.contains (.switch option)
  let operands := items.filterMap Item.operand?
  { languageName := (value .language).getD defaultLanguage
    types := value .types
    proposed := given .proposed
    resolveDeps := items.reverse.findSome? Item.resolveDeps?
    package := value .package
    config := value .config
    configFirst := (items.findSome? Item.givesConfig?).getD false
    force := given .force
    dryRun := given .dryRun
    verbose := given .verbose
    path := operands[0]?
    output := operands[1]?
    surplus := operands.drop 2 }

end ProtocolCodegen.CommandLine
