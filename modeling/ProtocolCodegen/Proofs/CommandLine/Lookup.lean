import Mathlib
import ProtocolCodegen.CommandLine.Run
import ProtocolCodegen.Proofs.Files.Looking
import ProtocolCodegen.Proofs.Files.Spelling

/-!
# Looking up the arguments

Before it generates something, the command looks up its schema and its configuration and reads them.
It only looks at the directory tree, and the output has no part in what it finds.
-/

namespace ProtocolCodegen.CommandLine

variable {tree : FileTree}

/-- An absolute path that its own text spells, with something that stands there. -/
structure Stands (tree : FileTree) (path : FilePath) : Prop where
  absolute : path.slashes = 1
  proper : ∀ component ∈ path.components, FilePath.IsComponent component
  stands : ∃ kind, tree.kind path = .ok (some kind)

/-- Whether the directory in which the command runs has a path that a text spells. -/
def ProperStart (tree : FileTree) : Prop :=
  ∀ name ∈ tree.workingDirectory, FilePath.IsComponent name

instance (tree : FileTree) : Decidable (ProperStart tree) :=
  inferInstanceAs (Decidable (∀ name ∈ tree.workingDirectory, FilePath.IsComponent name))

/-! ## Paths -/

theorem yields_pathOf {text : String} (free : (FilePath.ofText text).hasZero = false) :
    tree.Yields (pathOf text) (.ok (.ofText text)) := by
  rw [pathOf, if_neg (Bool.eq_false_iff.mp free)]
  rfl

theorem finds_findPath (proper : ProperStart tree) (text : String) :
    tree.Finds (findPath text) fun entry => Stands tree entry.1 := by
  rw [findPath]
  by_cases zero : (FilePath.ofText text).hasZero = true
  · have refused : tree.Yields (pathOf text) (.error (.file .zeroCharacter)) := by
      rw [pathOf, if_pos zero]
      rfl
    refine refused.bind_error.finds fun entry same => ?_
    cases same
  · let path := FilePath.resolve ⟨1, tree.workingDirectory⟩ (.ofText text)
    have started : tree.Yields (ExceptT.lift FileStore.workingDirectory : ExceptT CommandError _ _)
        (.ok ⟨1, tree.workingDirectory⟩) := FileTree.yields_lift rfl
    have looked : tree.Yields (ExceptT.lift (FileStore.kind path) : ExceptT CommandError _ _)
        (.ok (tree.kind path)) := FileTree.yields_lift rfl
    refine (yields_pathOf (Bool.eq_false_iff.mpr zero)).finds_bind
      (started.finds_bind (looked.finds_bind ?_))
    split
    · rename_i kind stands
      exact FileTree.finds_pure
        ⟨rfl, fun component => FilePath.isComponent_of_mem_resolve proper, kind, stands⟩
    · exact FileTree.finds_throw _ _

/-! ## Settings -/

theorem finds_findLanguage (name : String) :
    tree.Finds (findLanguage name) fun _ => True := by
  rw [findLanguage]
  split
  · exact FileTree.finds_pure trivial
  · exact FileTree.finds_throw _ _

theorem finds_findConfig (proper : ProperStart tree) (text : Option String) :
    tree.Finds (findConfig text) fun config => ∀ path, config = some path → Stands tree path := by
  cases text with
  | none => exact FileTree.finds_pure fun path same => by cases same
  | some text =>
      refine (finds_findPath proper text).bind fun entry found => ?_
      exact FileTree.finds_pure fun path same => Option.some.inj same ▸ found

theorem finds_findSettings (proper : ProperStart tree) (invocation : Invocation) :
    tree.Finds invocation.findSettings fun found =>
      (∀ path, found.2 = some path → Stands tree path) ∧
        tree.Yields (findConfig invocation.config) (.ok found.2) := by
  have config := (finds_findConfig proper invocation.config).and_yields
  rw [Invocation.findSettings]
  split
  · exact config.bind fun _ found => (finds_findLanguage _).bind fun _ _ =>
      FileTree.finds_pure found
  · exact (finds_findLanguage _).bind fun _ _ => config.bind fun _ found =>
      FileTree.finds_pure found

/-! ## Operands -/

/-- Whether a text can be given as the output: it is not empty, which counts as none, and holds no
zero character. -/
def IsOutput (text : String) : Prop :=
  text ≠ "" ∧ (FilePath.ofText text).hasZero = false

instance (text : String) : Decidable (IsOutput text) :=
  inferInstanceAs (Decidable (_ ∧ _))

/-- A use of the command with another output. -/
def Invocation.withOutput (invocation : Invocation) (output : String) : Invocation :=
  { invocation with output := some output }

/-- The path of the schema, unless there are operands beside it and the output. -/
def Invocation.acceptSchema (invocation : Invocation) (path : FilePath) :
    Except CommandError FilePath :=
  match invocation.surplus with
  | [] => .ok path
  | text :: _ => .error (.usage (.extraOperand text))

theorem Invocation.eq_of_acceptSchema {invocation : Invocation} {path found : FilePath}
    (accepted : invocation.acceptSchema path = .ok found) : found = path := by
  rw [acceptSchema] at accepted
  split at accepted
  · exact (Except.ok.inj accepted).symm
  · cases accepted

theorem finds_findSchema (proper : ProperStart tree) (text : Option String) :
    tree.Finds (findSchema text) (Stands tree) := by
  cases text with
  | none => exact FileTree.finds_throw _ _
  | some text =>
      refine (finds_findPath proper text).bind fun entry found => ?_
      obtain ⟨path, kind⟩ := entry
      cases kind with
      | file => exact FileTree.finds_pure found
      | directory => exact FileTree.finds_throw _ _

theorem yields_discard_pathOf {output : String} (given : IsOutput output) :
    tree.Yields (discard (pathOf output)) (.ok ()) := by
  have accepted : (pathOf output : ExceptT CommandError (StateM FileTree) FilePath) =
      pure (.ofText output) := if_neg (Bool.eq_false_iff.mp given.2)
  rw [accepted]
  rfl

/-- Whatever the output is, the operands are accepted or refused alike. -/
theorem Invocation.yields_findOperands {invocation : Invocation}
    {schema : Except CommandError FilePath}
    (yields : tree.Yields (findSchema invocation.path) schema) {output : String}
    (given : IsOutput output) :
    tree.Yields (invocation.withOutput output).findOperands
      (schema >>= invocation.acceptSchema) := by
  refine yields.bind fun path _ => (yields_discard_pathOf given).bind_ok ?_
  have surplus : (invocation.withOutput output).surplus = invocation.surplus := rfl
  rw [surplus, acceptSchema]
  cases invocation.surplus <;> rfl

/-! ## Files -/

theorem finds_readFile (path : FilePath) : tree.Finds (readFile path) fun _ => True := by
  have looked : tree.Finds (ExceptT.lift (FileStore.read path) : ExceptT CommandError _ _)
      fun _ => True := (FileTree.yields_lift rfl).finds fun _ _ => trivial
  refine looked.bind fun content _ => ?_
  split
  · exact FileTree.finds_pure trivial
  · exact FileTree.finds_throw _ _

/-- The configuration that a file holds, or the one in which nothing was chosen. -/
def readBase (configPath : Option FilePath) : ExceptT CommandError (StateM FileTree) Config :=
  match configPath with
  | none => pure Config.defaults
  | some path => readConfig path

theorem finds_readBase (configPath : Option FilePath) :
    tree.Finds (readBase configPath) fun _ => True := by
  cases configPath with
  | none => exact FileTree.finds_pure trivial
  | some path =>
      refine (finds_readFile path).bind fun content _ => ?_
      split
      · exact FileTree.finds_throw _ _
      · split
        · exact FileTree.finds_pure trivial
        · exact FileTree.finds_throw _ _

/-! ## Generation -/

theorem Invocation.generation_eq (invocation : Invocation) :
    (invocation.generation : ExceptT CommandError (StateM FileTree) (Config × Generation)) = do
      let found ← invocation.findSettings
      let path ← invocation.findOperands
      let base ← readBase found.2
      let content ← readFile path
      let command ← ExceptT.lift (invocation.commandText path found.2).run
      let config := invocation.configure base path.name
      return (config, generateFrom config found.1 invocation.languageName (Model.ofBytes content)
        command) := by
  refine bind_congr fun found => bind_congr fun path => ?_
  obtain ⟨language, configPath⟩ := found
  cases configPath <;> rfl

/-- Either the lookup fails whatever the output is, or there is a document from which the files are
generated, and the output has a part in the command alone. -/
theorem exists_yields_generation (proper : ProperStart tree) (invocation : Invocation) :
    (∃ error, ∀ output, IsOutput output →
      tree.Yields (invocation.withOutput output).generation (.error error)) ∨
    ∃ config language document path configPath,
      Stands tree path ∧ tree.Yields (findSchema invocation.path) (.ok path) ∧
      (∀ path, configPath = some path → Stands tree path) ∧
      tree.Yields (findConfig invocation.config) (.ok configPath) ∧
      ∀ output, IsOutput output → ∀ command,
        tree.Yields ((invocation.withOutput output).commandText path configPath) command →
          tree.Yields (invocation.withOutput output).generation (.ok
            (config, generateFrom config language invocation.languageName document command)) := by
  simp only [Invocation.generation_eq]
  obtain ⟨settings, yieldsSettings, foundSettings⟩ := finds_findSettings proper invocation
  cases settings with
  | error error => exact .inl ⟨error, fun output _ => yieldsSettings.bind_error⟩
  | ok found =>
  obtain ⟨schema, yieldsSchema, foundSchema⟩ := finds_findSchema proper invocation.path
  have yieldsOperands (output : String) (given : IsOutput output) :=
    Invocation.yields_findOperands yieldsSchema given
  generalize operands : schema >>= invocation.acceptSchema = accepted at yieldsOperands
  cases accepted with
  | error error =>
      exact .inl ⟨error, fun output given =>
        yieldsSettings.bind_ok (yieldsOperands output given).bind_error⟩
  | ok path =>
  obtain ⟨base, yieldsBase, -⟩ := @finds_readBase tree found.2
  cases base with
  | error error =>
      exact .inl ⟨error, fun output given =>
        yieldsSettings.bind_ok ((yieldsOperands output given).bind_ok yieldsBase.bind_error)⟩
  | ok base =>
  obtain ⟨content, yieldsContent, -⟩ := @finds_readFile tree path
  cases content with
  | error error =>
      exact .inl ⟨error, fun output given =>
        yieldsSettings.bind_ok ((yieldsOperands output given).bind_ok
          (yieldsBase.bind_ok yieldsContent.bind_error))⟩
  | ok content =>
      obtain ⟨stands, config⟩ := foundSettings found rfl
      cases schema with
      | error error => cases operands
      | ok spelled =>
      obtain rfl := Invocation.eq_of_acceptSchema operands
      refine .inr ⟨invocation.configure base path.name, found.1, Model.ofBytes content, path,
        found.2, foundSchema path rfl, yieldsSchema, stands, config,
        fun output given command told => ?_⟩
      exact yieldsSettings.bind_ok ((yieldsOperands output given).bind_ok
        (yieldsBase.bind_ok (yieldsContent.bind_ok ((FileTree.yields_lift told).bind_ok rfl))))

end ProtocolCodegen.CommandLine
