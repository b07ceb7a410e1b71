import ProtocolCodegen.Proofs.Target.RenderableTypes
import ProtocolCodegen.Proofs.Target.Sections
import ProtocolCodegen.Target.Go.File

/-!
# Go: written declarations

A declaration is written if all types that it spells have a Go text, and fails otherwise.  The types
of a protocol have one, so that the file of an analyzed outline is always written.
-/

namespace ProtocolCodegen.Go

open Outline

variable {config : Config} {outline : Outline}

/-! ## Types -/

/-- A type has a Go text. -/
def IsSpellable (type : Descriptor) : Prop :=
  ∃ text, typeText type = .ok text

theorem exists_typeTextOf_iff {type : Option Descriptor} :
    (∃ text, typeTextOf type = .ok text) ↔ ∀ given, type = some given → IsSpellable given := by
  cases type with
  | none => simp [typeTextOf]
  | some given => simp [typeTextOf, IsSpellable]

theorem isSpellable_of_isVoid {type : Descriptor} (void : isVoid (some type) = true) :
    IsSpellable type := by
  obtain ⟨kind, name, category, arguments, constant⟩ := type
  obtain ⟨rfl, -⟩ : kind = .scalar ∧ category = some .null := by simpa [isVoid] using void
  exact ⟨_, rfl⟩

/-! ## Records, aliases and composites -/

theorem exists_fieldLines_iff {field : Field} :
    (∃ lines, fieldLines field = .ok lines) ↔
      ∀ type, field.type = some type → IsSpellable type := by
  rw [← exists_typeTextOf_iff]
  constructor
  · rintro ⟨lines, written⟩
    obtain ⟨type, spelled, _⟩ := except_bind_eq_ok_iff.mp written
    exact ⟨type, spelled⟩
  · rintro ⟨type, spelled⟩
    exact ⟨_, except_bind_eq_ok_iff.mpr ⟨type, spelled, rfl⟩⟩

theorem succeeds_structText_iff {declared : Outline.Class} :
    (structText declared).Succeeds ↔
      ∀ field ∈ declared.fields, ∀ type, field.type = some type → IsSpellable type := by
  rw [structText, Rendering.succeeds_bind_pure_iff, Rendering.succeeds_mapM_iff]
  exact forall₂_congr fun field _ => exists_fieldLines_iff

theorem succeeds_aliasText_iff {declared : Alias} :
    (aliasText declared).Succeeds ↔ ∀ type, declared.target = some type → IsSpellable type :=
  Rendering.succeeds_bind_pure_iff.trans exists_typeTextOf_iff

theorem succeeds_compositeText_iff {composite : Composite} :
    (compositeText config composite).Succeeds ↔
      ∀ type ∈ composite.descriptors, IsSpellable type := by
  cases composite with
  | wrapper name field wrapped =>
      rw [Composite.descriptors, List.forall_mem_singleton]
      exact Rendering.succeeds_bind_pure_iff
  | union name variants =>
      have spelled : (variants.mapM fun variant =>
          (typeText variant.type : Rendering String)).Succeeds ↔
            ∀ variant ∈ variants, IsSpellable variant.type := Rendering.succeeds_mapM_iff
      rw [Composite.descriptors, List.forall_mem_map, ← spelled, compositeText, unionText]
      split
      · refine (Rendering.succeeds_bind_iff fun _ => Rendering.succeeds_bind_pure_iff).trans ?_
        exact and_iff_right ⟨_, rfl⟩
      · exact Rendering.succeeds_bind_pure_iff

/-! ## Methods -/

/-- A method belongs to an interface that is asked for. -/
def IsReceived (config : Config) (method : Method) : Prop :=
  (config.generateServer = true ∧ method.toServer = true) ∨
    (config.generateClient = true ∧ method.toClient = true)

/-- The types of the arguments of a method. -/
def argumentsText (method : Method) : Except RenderError String :=
  match method.params with
  | some params => (typeText params).map ("context.Context, " ++ pointer ·)
  | none => .ok "context.Context"

/-- The types that a method returns. -/
def returnsText (method : Method) : Except RenderError String :=
  if method.isNotification || isVoid method.result then .ok "error"
  else (typeTextOf method.result).map ("(" ++ pointer · ++ ", error)")

theorem methodLines_eq (method : Method) :
    methodLines method = do
      let arguments ← argumentsText method
      let returns ← returnsText method
      return docComment method.documentation method.since "" "\t" ++
        ["\t" ++ method.name ++ "(" ++ arguments ++ ") " ++ returns] := by
  unfold methodLines argumentsText returnsText
  cases method.params <;> split <;> rfl

theorem exists_argumentsText_iff {method : Method} :
    (∃ text, argumentsText method = .ok text) ↔
      ∀ type, method.params = some type → IsSpellable type := by
  rw [argumentsText]
  cases method.params with
  | none => simp
  | some params => simp [IsSpellable, except_map_eq_ok_iff]

theorem exists_returnsText_iff {method : Method} :
    (∃ text, returnsText method = .ok text) ↔
      (method.isNotification = false → ∀ type, method.result = some type → IsSpellable type) := by
  rw [returnsText]
  by_cases silent : method.isNotification = true
  · simp [silent]
  by_cases void : isVoid method.result = true
  · rw [if_pos (by simp [void])]
    refine iff_of_true ⟨_, rfl⟩ fun _ type given => isSpellable_of_isVoid ?_
    rwa [given] at void
  · have answered : method.isNotification = false := by simpa using silent
    rw [if_neg (by simp [silent, void]), imp_iff_right answered, ← exists_typeTextOf_iff]
    simp [except_map_eq_ok_iff]

theorem exists_methodLines_iff {method : Method} :
    (∃ lines, methodLines method = .ok lines) ↔
      (∀ type, method.params = some type → IsSpellable type) ∧
        (method.isNotification = false →
          ∀ type, method.result = some type → IsSpellable type) := by
  rw [← exists_argumentsText_iff, ← exists_returnsText_iff, methodLines_eq]
  constructor
  · rintro ⟨lines, written⟩
    obtain ⟨arguments, given, written⟩ := except_bind_eq_ok_iff.mp written
    obtain ⟨returns, answered, _⟩ := except_bind_eq_ok_iff.mp written
    exact ⟨⟨arguments, given⟩, returns, answered⟩
  · rintro ⟨⟨arguments, given⟩, returns, answered⟩
    exact ⟨_, except_bind_eq_ok_iff.mpr
      ⟨arguments, given, except_bind_eq_ok_iff.mpr ⟨returns, answered, rfl⟩⟩⟩

/-- The line of the constant of a method. -/
def constantLine (method : Method) : String :=
  "\tMethod" ++ method.name ++ " = " ++ stringLiteral method.method

/-- The lines of the methods of an interface, method by method, if it is asked for. -/
def receivedLines (asked : Bool) (receives : Method → Bool) (methods : List Method) :
    Rendering (List (List String)) :=
  (if asked then methods.filter receives else []).mapM fun method =>
    (methodLines method : Rendering (List String))

/-- The text of the constants and the interfaces of methods. -/
def methodsTextOf (methods : List Method) (server client : List (List String)) : String :=
  Text.unlines <|
    ["// LSP method names.", "const ("] ++ methods.map constantLine ++ [")"] ++
    interfaceLines "Server" "server" server ++ interfaceLines "Client" "client" client

theorem methodsText_eq (config : Config) (methods : List Method) :
    methodsText config methods = do
      let server ← receivedLines config.generateServer (·.toServer) methods
      let client ← receivedLines config.generateClient (·.toClient) methods
      if !server.isEmpty || !client.isEmpty then
        Rendering.require ["context"]
      return methodsTextOf methods server client :=
  rfl

theorem exists_interfaces {methods : List Method} {text : String}
    (rendered : (methodsText config methods).result = .ok text) :
    ∃ server client,
      (receivedLines config.generateServer (·.toServer) methods).result = .ok server ∧
      (receivedLines config.generateClient (·.toClient) methods).result = .ok client ∧
      text = methodsTextOf methods server client := by
  rw [methodsText_eq] at rendered
  obtain ⟨server, foundServer, rendered⟩ := Rendering.result_bind_eq_ok_iff.mp rendered
  obtain ⟨client, foundClient, rendered⟩ := Rendering.result_bind_eq_ok_iff.mp rendered
  refine ⟨server, client, foundServer, foundClient, ?_⟩
  split at rendered
  · obtain ⟨_, _, rendered⟩ := Rendering.result_bind_eq_ok_iff.mp rendered
    exact (Except.ok.inj rendered).symm
  · exact (Except.ok.inj rendered).symm

theorem succeeds_receivedLines_iff {asked : Bool} {receives : Method → Bool}
    {methods : List Method} :
    (receivedLines asked receives methods).Succeeds ↔
      ∀ method ∈ methods, asked = true ∧ receives method = true →
        ∃ lines, methodLines method = .ok lines := by
  rw [receivedLines, Rendering.succeeds_mapM_iff]
  simp only [mem_ite_filter_iff]
  constructor
  · exact fun each method listed asks => each method ⟨asks.1, listed, asks.2⟩
  · exact fun each method asks => each method asks.2.1 ⟨asks.1, asks.2.2⟩

theorem succeeds_methodsText_iff {methods : List Method} :
    (methodsText config methods).Succeeds ↔
      ∀ method ∈ methods, IsReceived config method → ∃ lines, methodLines method = .ok lines := by
  have both : (methodsText config methods).Succeeds ↔
      (receivedLines config.generateServer (·.toServer) methods).Succeeds ∧
        (receivedLines config.generateClient (·.toClient) methods).Succeeds := by
    rw [methodsText_eq]
    refine Rendering.succeeds_bind_iff fun server => ?_
    refine (Rendering.succeeds_bind_iff fun client => iff_true_intro ?_).trans
      (and_iff_left trivial)
    split <;> exact ⟨_, rfl⟩
  rw [both, succeeds_receivedLines_iff, succeeds_receivedLines_iff]
  constructor
  · rintro ⟨server, client⟩ method listed received
    rcases received with asks | asks
    · exact server method listed asks
    · exact client method listed asks
  · intro each
    exact ⟨fun method listed asks => each method listed (.inl asks),
      fun method listed asks => each method listed (.inr asks)⟩

/-! ## Outlines -/

/-- How the declarations of an outline are rendered in Go. -/
def renderers (config : Config) : Renderers where
  classText := structText
  enumText := enumText
  aliasText := aliasText
  compositeText := compositeText config
  methodsText := methodsText config
  required _ := []

theorem declarations_eq (config : Config) (outline : Outline) :
    declarations config outline = (renderers config).declarations outline := by
  unfold declarations Renderers.declarations Renderers.methodSection
  split <;> rfl

/-- A declaration of an outline spells a type: that of a field, an alias or a part of a composite,
or of a method in an interface that is asked for, where a notification has no answer. -/
inductive Spells (config : Config) (outline : Outline) (type : Descriptor) : Prop where
  | field {declared : Outline.Class} {field : Field} (listed : declared ∈ outline.classes)
      (owned : field ∈ declared.fields) (typed : field.type = some type)
  | target {declared : Alias} (listed : declared ∈ outline.aliases)
      (typed : declared.target = some type)
  | composite {entry : String × Composite} (listed : entry ∈ outline.composites)
      (inside : type ∈ entry.2.descriptors)
  | params {method : Method} (listed : method ∈ outline.methods)
      (received : IsReceived config method) (typed : method.params = some type)
  | result {method : Method} (listed : method ∈ outline.methods)
      (received : IsReceived config method) (answers : method.isNotification = false)
      (typed : method.result = some type)

theorem Spells.hasType {type : Descriptor} (spells : Spells config outline type) :
    outline.HasType type := by
  cases spells with
  | field listed owned typed => exact .field listed owned typed
  | target listed typed => exact .target listed typed
  | composite listed inside => exact .composite listed inside
  | params listed received typed => exact .params listed typed
  | result listed received answers typed => exact .result listed typed

theorem succeeds_declarations_iff :
    (declarations config outline).Succeeds ↔
      ∀ type, Spells config outline type → IsSpellable type := by
  rw [declarations_eq, Renderers.succeeds_declarations_iff]
  constructor
  · rintro ⟨classes, _, aliases, composites, methods⟩ type spells
    have written {method : Method} (listed : method ∈ outline.methods) :
        IsReceived config method → ∃ lines, methodLines method = .ok lines :=
      succeeds_methodsText_iff.mp (methods (List.ne_nil_of_mem listed)) method listed
    cases spells with
    | field listed owned typed =>
        exact succeeds_structText_iff.mp (classes _ listed) _ owned type typed
    | target listed typed => exact succeeds_aliasText_iff.mp (aliases _ listed) type typed
    | composite listed inside =>
        exact succeeds_compositeText_iff.mp (composites _ listed) type inside
    | params listed received typed =>
        exact (exists_methodLines_iff.mp (written listed received)).1 type typed
    | result listed received answers typed =>
        exact (exists_methodLines_iff.mp (written listed received)).2 answers type typed
  · intro spellable
    refine ⟨fun declared listed => ?_, fun _ _ => ⟨_, rfl⟩, fun declared listed => ?_,
      fun entry listed => ?_, fun _ => ?_⟩
    · exact succeeds_structText_iff.mpr fun field owned type typed =>
        spellable type (.field listed owned typed)
    · exact succeeds_aliasText_iff.mpr fun type typed => spellable type (.target listed typed)
    · exact succeeds_compositeText_iff.mpr fun type inside =>
        spellable type (.composite listed inside)
    · refine succeeds_methodsText_iff.mpr fun method listed received => ?_
      exact exists_methodLines_iff.mpr
        ⟨fun type typed => spellable type (.params listed received typed),
          fun answers type typed => spellable type (.result listed received answers typed)⟩

theorem succeeds_fileText_iff :
    (fileText config outline).Succeeds ↔ (declarations config outline).Succeeds := by
  constructor
  · rintro ⟨file, written⟩
    obtain ⟨texts, rendered, _⟩ := except_map_eq_ok_iff.mp written
    exact ⟨texts, rendered⟩
  · rintro ⟨texts, rendered⟩
    exact ⟨_, except_map_eq_ok_iff.mpr ⟨texts, rendered, rfl⟩⟩

section Analyzed

variable (analyzed : outline.IsAnalyzed)

include analyzed

theorem isSpellable_of_hasType {type : Descriptor} (stands : outline.HasType type) :
    IsSpellable type :=
  exists_typeText_eq_ok (analyzed.isWellFormed stands)

theorem succeeds_methodsText (config : Config) : (methodsText config outline.methods).Succeeds := by
  refine succeeds_methodsText_iff.mpr fun method listed _ => exists_methodLines_iff.mpr ⟨?_, ?_⟩
  · exact fun type typed => isSpellable_of_hasType analyzed (.params listed typed)
  · exact fun _ type typed => isSpellable_of_hasType analyzed (.result listed typed)

theorem succeeds_declarations (config : Config) : (declarations config outline).Succeeds :=
  succeeds_declarations_iff.mpr fun _ spells => isSpellable_of_hasType analyzed spells.hasType

end Analyzed

end ProtocolCodegen.Go
