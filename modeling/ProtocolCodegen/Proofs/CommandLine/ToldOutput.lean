import Mathlib
import ProtocolCodegen.Proofs.CommandLine.Lookup
import ProtocolCodegen.Proofs.Target.HeaderLine

/-!
# The output in a generated file

Runs that differ in the output alone generate the same file but for the header line that tells the
command.  There the schema and the configuration stand with their last names.  So does an output at
which something stands, but one at which nothing stands is told with its directories.
-/

namespace ProtocolCodegen.CommandLine

variable {tree : FileTree}

/-! ## Telling a command -/

/-- How a value is told in a tree. -/
def toldIn (tree : FileTree) (value : String) : Except FileError String := do
  let kind ← tree.kind (.ofText value)
  return if kind.isSome then (FilePath.ofText value).name else value

/-- How a setting is told in a tree. -/
def toldSettingIn (tree : FileTree) (setting : Setting) (value : Option String) :
    Except FileError (List String) :=
  match value with
  | none => return []
  | some value =>
      if value = "" then return []
      else return ["--" ++ setting.name, ← toldIn tree value]

/-- The options of a command as they are told in a tree, given the name that the configuration
has. -/
def Invocation.optionWords (invocation : Invocation) (tree : FileTree)
    (configName : Option String) : Except FileError (List String) := do
  let languageName :=
    if invocation.languageName = defaultLanguage then none else some invocation.languageName
  let language ← toldSettingIn tree .language languageName
  let types ← toldSettingIn tree .types invocation.types
  let package ← toldSettingIn tree .package invocation.package
  return language ++ types ++
    toldSwitch .proposed invocation.proposed ++
    toldSwitch .noResolveDeps (invocation.resolveDeps == some false) ++
    package ++ (configName.map fun name => ["--config", name]).getD [] ++
    toldSwitch .force invocation.force ++
    toldSwitch .dryRun invocation.dryRun ++
    toldSwitch .verbose invocation.verbose

theorem yields_told (value : String) : tree.Yields (told value) (toldIn tree value) := by
  have looked : tree.Yields (ExceptT.mk (FileStore.kind (.ofText value)))
      (tree.kind (.ofText value)) := rfl
  exact looked.bind fun kind _ => by cases kind <;> rfl

theorem yields_toldSetting (setting : Setting) (value : Option String) :
    tree.Yields (toldSetting setting value) (toldSettingIn tree setting value) := by
  cases value with
  | none => rfl
  | some value =>
      rw [toldSetting, toldSettingIn]
      split
      · rfl
      · exact (yields_told value).bind fun word _ => rfl

theorem Stands.text_ne {path : FilePath} (found : Stands tree path) : path.text ≠ "" := by
  obtain ⟨slashes, components⟩ := path
  obtain rfl : slashes = 1 := found.absolute
  intro empty
  have chars := congrArg String.toList empty
  simp [FilePath.text] at chars

theorem Stands.toldIn_text {path : FilePath} (found : Stands tree path) :
    toldIn tree path.text = .ok path.name := by
  obtain ⟨kind, stands⟩ := found.stands
  rw [toldIn, FilePath.ofText_text found.absolute found.proper, stands]
  rfl

theorem yields_toldOperand {value : String} (nonempty : value ≠ "") :
    tree.Yields (toldOperand (some value)) (do return [← toldIn tree value]) := by
  rw [toldOperand, if_neg nonempty]
  exact (yields_told value).bind fun word _ => rfl

/-- The words of a command as a tree tells them. -/
theorem Invocation.yields_words (invocation : Invocation) {output : String} (given : output ≠ "")
    {path : FilePath} (found : Stands tree path) {config : Option FilePath}
    (foundConfig : ∀ path, config = some path → Stands tree path) :
    tree.Yields ((invocation.withOutput output).words path config) (do
      let word ← toldIn tree output
      let options ← invocation.optionWords tree (config.map FilePath.name)
      return path.name :: word :: options) := by
  have configWords : tree.Yields (toldSetting .config (config.map FilePath.text))
      (.ok ((config.map fun path => ["--config", path.name]).getD [])) := by
    cases config with
    | none => rfl
    | some path =>
        have found := foundConfig path rfl
        have yields := @yields_toldSetting tree .config (some path.text)
        rw [toldSettingIn, if_neg found.text_ne, found.toldIn_text] at yields
        exact yields
  have pathWords := @yields_toldOperand tree _ found.text_ne
  rw [found.toldIn_text] at pathWords
  let languageName :=
    if invocation.languageName = defaultLanguage then none else some invocation.languageName
  have steps : tree.Yields ((invocation.withOutput output).words path config) _ :=
    pathWords.bind fun _ _ =>
    (yields_toldOperand given).bind fun _ _ =>
    (yields_toldSetting .language languageName).bind fun _ _ =>
    (yields_toldSetting .types invocation.types).bind fun _ _ =>
    (yields_toldSetting .package invocation.package).bind fun _ _ =>
    configWords.bind fun _ _ =>
    FileTree.yields_pure _
  refine steps.of_eq ?_
  cases toldIn tree output with
  | error error => rfl
  | ok word =>
      rw [optionWords, Option.map_map]
      cases toldSettingIn tree .language languageName with
      | error error => rfl
      | ok language =>
          cases toldSettingIn tree .types invocation.types with
          | error error => rfl
          | ok types => cases toldSettingIn tree .package invocation.package <;> rfl

/-- The command with given words for the schema and the output. -/
def commandOf (schema output : String) (options : List String) : String :=
  String.intercalate " " (commandName :: schema :: output :: options)

/-- The command as a tree tells it, given the names that the schema and the configuration have. -/
def Invocation.commandIn (invocation : Invocation) (tree : FileTree) (output schemaName : String)
    (configName : Option String) : Except FileError String := do
  let word ← toldIn tree output
  let options ← invocation.optionWords tree configName
  return commandOf schemaName word options

theorem Invocation.yields_commandText (invocation : Invocation) {output : String}
    (given : output ≠ "") {path : FilePath} (found : Stands tree path) {config : Option FilePath}
    (foundConfig : ∀ path, config = some path → Stands tree path) :
    tree.Yields ((invocation.withOutput output).commandText path config)
      (invocation.commandIn tree output path.name (config.map FilePath.name)) := by
  refine ((invocation.yields_words given found foundConfig).bind
    fun words _ => FileTree.yields_pure (String.intercalate " " (commandName :: words))).of_eq ?_
  rw [commandIn]
  cases toldIn tree output with
  | error error => rfl
  | ok word => cases invocation.optionWords tree (config.map FilePath.name) <;> rfl

/-! ## The generated files -/

/-- The header line that tells the command. -/
def commandLine (schema output : String) (options : List String) : String :=
  Layout.lineComment "" ("Command: " ++ commandOf schema output options)

/-- But for blanks that can be cut off at its end, an output can be read off the line. -/
theorem trimEnd_eq_of_commandLine_eq {schema first second : String} {options : List String}
    (equal : commandLine schema first options = commandLine schema second options) :
    Text.trimEnd first = Text.trimEnd second := by
  obtain ⟨last, ends⟩ : ∃ last, ∀ output,
      String.intercalate " " (output :: options) = output ++ last := by
    cases options with
    | nil => exact ⟨"", fun output => by simp⟩
    | cons option rest =>
        exact ⟨" " ++ String.intercalate " " (option :: rest), fun output => by
          rw [String.intercalate_cons_cons, String.append_assoc]⟩
  have line (output : String) : commandLine schema output options =
      Text.trimEnd ("// Command: " ++ commandName ++ " " ++ schema ++ " " ++ output ++ last) := by
    have start : "// Command: " = "" ++ "// " ++ "Command: " := rfl
    rw [commandLine, Layout.lineComment, commandOf, String.intercalate_cons_cons,
      String.intercalate_cons_cons, ends, start]
    simp only [String.append_assoc]
  rw [line, line] at equal
  exact Text.trimEnd_eq_of_append_left (Text.trimEnd_eq_of_append_right equal)

/-- What a run generates in a tree, and the configuration for it, if it gets so far. -/
def Invocation.foundIn (invocation : Invocation) (tree : FileTree) : Option (Config × Generation) :=
  let program : ExceptT CommandError (StateM FileTree) (Config × Generation) :=
    invocation.generation
  (program.run.run tree).1.toOption

/-- The files that a run generates in a tree, if it generates any. -/
def Invocation.filesIn (invocation : Invocation) (tree : FileTree) :
    Option (List (String × String)) :=
  (invocation.foundIn tree).bind fun found => found.2.files?

/-- Whether a run gets so far, with a configuration that asks for the comment with the command. -/
def Invocation.tellsCommand (invocation : Invocation) (tree : FileTree) : Bool :=
  (invocation.foundIn tree).any fun found => found.1.addGenerationComment

theorem Invocation.foundIn_of_yields {invocation : Invocation}
    {result : Except CommandError (Config × Generation)}
    (yields : tree.Yields invocation.generation result) :
    invocation.foundIn tree = result.toOption :=
  congrArg (fun outcome => Except.toOption (Prod.fst outcome)) yields

/-- No files are generated whatever the output is, or the files have no comment and the output has
no part in them, or the output is a word of the line that tells the command. -/
theorem Invocation.filesIn_withOutput_cases (proper : ProperStart tree) (invocation : Invocation) :
    let run := invocation.withOutput
    (∀ output, IsOutput output → (run output).filesIn tree = none) ∨
      (∃ file, ∀ output, IsOutput output →
        (run output).tellsCommand tree = false ∧ (run output).filesIn tree = some [file]) ∨
      ∃ path configPath options name before after,
        tree.Yields (findSchema invocation.path) (.ok path) ∧
        tree.Yields (findConfig invocation.config) (.ok configPath) ∧
        invocation.optionWords tree (configPath.map FilePath.name) = .ok options ∧
        ∀ output, IsOutput output → (run output).filesIn tree =
          (toldIn tree output).toOption.map fun word =>
            [(name, before ++ commandLine path.name word options ++ after)] := by
  intro run
  rcases exists_yields_generation proper invocation with
    ⟨error, yields⟩ |
      ⟨config, language, document, path, configPath, found, schema, foundConfig, settings, yields⟩
  · left
    intro output given
    rw [filesIn, foundIn_of_yields (yields output given)]
    rfl
  · let command (output : String) : Except FileError String :=
      invocation.commandIn tree output path.name (configPath.map FilePath.name)
    have foundIn (output : String) (given : IsOutput output) : (run output).foundIn tree =
        some (config, generateFrom config language invocation.languageName document
          (command output)) :=
      foundIn_of_yields (yields output given _
        (invocation.yields_commandText given.1 found foundConfig))
    have files (output : String) (given : IsOutput output) : (run output).filesIn tree =
        (generateFrom config language invocation.languageName document
          (command output)).files? := by
      rw [filesIn, foundIn output given]
      rfl
    rcases files?_generateFrom config language invocation.languageName document with
      nothing | ⟨silent, file, same⟩ | ⟨name, before, after, line⟩
    · exact .inl fun output given => (files output given).trans (nothing _)
    · refine .inr (.inl ⟨file, fun output given => ⟨?_, (files output given).trans (same _)⟩⟩)
      rw [tellsCommand, foundIn output given]
      exact silent
    · cases told : invocation.optionWords tree (configPath.map FilePath.name) with
      | error error =>
          refine .inl fun output given => ((files output given).trans (line _)).trans ?_
          simp only [command, Invocation.commandIn, told]
          cases toldIn tree output <;> rfl
      | ok options =>
          refine .inr (.inr ⟨path, configPath, options, name, before, after, schema, settings, told,
            fun output given => ((files output given).trans (line _)).trans ?_⟩)
          simp only [command, Invocation.commandIn, told]
          cases toldIn tree output with
          | error error => exact (rfl : (none : Option (List (String × String))) = none)
          | ok word => exact congrArg some rfl

theorem Invocation.filesIn_eq_of_stands (proper : ProperStart tree) (invocation : Invocation)
    {first second : String} (given : IsOutput first) (given' : IsOutput second)
    {kind kind' : EntryKind} (stands : tree.kind (.ofText first) = .ok (some kind))
    (stands' : tree.kind (.ofText second) = .ok (some kind'))
    (last : (FilePath.ofText first).name = (FilePath.ofText second).name) :
    (invocation.withOutput first).filesIn tree = (invocation.withOutput second).filesIn tree := by
  rcases invocation.filesIn_withOutput_cases proper with
    nothing | ⟨file, same⟩ | ⟨_, _, _, _, _, _, _, _, _, line⟩
  · rw [nothing first given, nothing second given']
  · rw [(same first given).2, (same second given').2]
  · have told : toldIn tree first = toldIn tree second := by
      rw [toldIn, toldIn, stands, stands', last]
      rfl
    rw [line first given, line second given', told]

theorem Invocation.trimEnd_eq_of_filesIn_eq (proper : ProperStart tree) (invocation : Invocation)
    {first second : String} (given : IsOutput first) (given' : IsOutput second)
    (missing : tree.kind (.ofText first) = .ok none)
    (missing' : tree.kind (.ofText second) = .ok none)
    (tells : (invocation.withOutput first).tellsCommand tree = true)
    (generates : (invocation.withOutput first).filesIn tree ≠ none)
    (equal : (invocation.withOutput first).filesIn tree =
      (invocation.withOutput second).filesIn tree) :
    Text.trimEnd first = Text.trimEnd second := by
  rcases invocation.filesIn_withOutput_cases proper with
    nothing | ⟨file, same⟩ | ⟨path, _, options, name, before, after, _, _, _, line⟩
  · exact absurd (nothing first given) generates
  · rw [(same first given).1] at tells
    cases tells
  · have told {output : String} (missing : tree.kind (.ofText output) = .ok none) :
        toldIn tree output = .ok output := by
      rw [toldIn, missing]
      rfl
    rw [line first given, line second given', told missing, told missing'] at equal
    have texts := congrArg Prod.snd (List.head_eq_of_cons_eq (Option.some.inj equal))
    rw [String.append_left_inj, String.append_right_inj] at texts
    exact trimEnd_eq_of_commandLine_eq texts

/-- Runs that differ in the output alone generate the same files if something stands at both outputs
and their last names agree.  Where nothing stands at either and the files have a comment, the files
are the same only if the outputs are, blanks at their ends apart.  In general the output is one word
of the line that tells the command and has no other part in the files.  In that line the schema and
the configuration stand with their last names, and so does an output at which something stands. -/
theorem Invocation.filesIn_withOutput (proper : ProperStart tree) (invocation : Invocation) :
    let run := invocation.withOutput
    (∀ first second, IsOutput first → IsOutput second →
      (∃ kind, tree.kind (.ofText first) = .ok (some kind)) →
      (∃ kind, tree.kind (.ofText second) = .ok (some kind)) →
      (FilePath.ofText first).name = (FilePath.ofText second).name →
        (run first).filesIn tree = (run second).filesIn tree) ∧
    (∀ first second, IsOutput first → IsOutput second →
      tree.kind (.ofText first) = .ok none → tree.kind (.ofText second) = .ok none →
      (run first).tellsCommand tree = true → (run first).filesIn tree ≠ none →
      (run first).filesIn tree = (run second).filesIn tree →
        Text.trimEnd first = Text.trimEnd second) ∧
    ((∀ output, IsOutput output → (run output).filesIn tree = none) ∨
      (∃ file, ∀ output, IsOutput output →
        (run output).tellsCommand tree = false ∧ (run output).filesIn tree = some [file]) ∨
      ∃ path configPath options name before after,
        tree.Yields (findSchema invocation.path) (.ok path) ∧
        tree.Yields (findConfig invocation.config) (.ok configPath) ∧
        invocation.optionWords tree (configPath.map FilePath.name) = .ok options ∧
        ∀ output, IsOutput output → (run output).filesIn tree =
          (toldIn tree output).toOption.map fun word =>
            [(name, before ++ commandLine path.name word options ++ after)]) := by
  refine ⟨?_, ?_, invocation.filesIn_withOutput_cases proper⟩
  · rintro first second given given' ⟨kind, stands⟩ ⟨kind', stands'⟩ last
    exact invocation.filesIn_eq_of_stands proper given given' stands stands' last
  · intro first second given given' missing missing' tells generates equal
    exact invocation.trimEnd_eq_of_filesIn_eq proper given given' missing missing' tells
      generates equal

/-- A dry run on an empty schema in the working directory. -/
def plainDryRun : Invocation :=
  .ofItems [.switch .dryRun, .operand "s.json"]

/-- The tree of a working directory with an empty schema and further empty files. -/
def withSchema (others : List Place) : FileTree :=
  .ofEntries ["work"] [] ((["s.json"], "\x7b\x7d".toUTF8) :: others.map (·, .empty))

/-- Where both outputs exist already, their directories have no part in the files. -/
theorem Invocation.filesIn_withOutput_of_existing :
    let tree := withSchema [["a", "out.kt"], ["b", "out.kt"]]
    ProperStart tree ∧ (plainDryRun.withOutput "a/out.kt").filesIn tree ≠ none ∧
      (plainDryRun.withOutput "a/out.kt").filesIn tree =
        (plainDryRun.withOutput "b/out.kt").filesIn tree := by
  intro tree
  have proper : ProperStart tree := by decide +kernel
  refine ⟨proper, by decide +kernel, ?_⟩
  exact (Invocation.filesIn_withOutput proper plainDryRun).1 "a/out.kt" "b/out.kt"
    (by decide +kernel) (by decide +kernel) ⟨.file, by decide +kernel⟩ ⟨.file, by decide +kernel⟩
    (by decide +kernel)

/-- Where no output exists yet, an output in a directory is told with it. -/
theorem Invocation.filesIn_ne_of_directory :
    let tree := withSchema []
    (FilePath.ofText "out.kt").name = (FilePath.ofText "a/out.kt").name ∧
      tree.kind (.ofText "out.kt") = .ok none ∧ tree.kind (.ofText "a/out.kt") = .ok none ∧
      (plainDryRun.withOutput "out.kt").filesIn tree ≠
        (plainDryRun.withOutput "a/out.kt").filesIn tree := by
  intro tree
  have proper : ProperStart tree := by decide +kernel
  have missing : tree.kind (.ofText "out.kt") = .ok none := by decide +kernel
  have missing' : tree.kind (.ofText "a/out.kt") = .ok none := by decide +kernel
  refine ⟨by decide +kernel, missing, missing', fun equal => ?_⟩
  have trimmed := plainDryRun.trimEnd_eq_of_filesIn_eq proper (by decide +kernel)
    (by decide +kernel) missing missing' (by decide +kernel) (by decide +kernel) equal
  exact absurd trimmed (by decide +kernel)

end ProtocolCodegen.CommandLine
