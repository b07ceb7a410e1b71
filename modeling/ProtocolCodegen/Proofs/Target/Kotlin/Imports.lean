import ProtocolCodegen.Proofs.Target.Kotlin.Names
import ProtocolCodegen.Proofs.Target.Sections
import ProtocolCodegen.Proofs.Target.Sessions
import ProtocolCodegen.Proofs.Text.Order

/-!
# Kotlin: imports

A Kotlin file has to import all names of the serialization library that its declarations use.  They
are needed in one place and written in another; every name in the written text that is neither known
without an import nor taken over from the outline is imported, whatever was generated before.
-/

namespace ProtocolCodegen.Kotlin

open Outline Text.Lexis

variable {config : Config} {outline : Outline}

/-! ## Sections -/

/-- The name that an outline needs if any of its declarations is annotated. -/
def annotationImports (outline : Outline) : List String :=
  if !(outline.classes.isEmpty && outline.enums.isEmpty && outline.composites.isEmpty) then
    ["kotlinx.serialization.Serializable"]
  else []

/-- How the declarations of an outline are rendered in Kotlin. -/
def renderers (config : Config) : Renderers where
  classText := classText
  enumText := enumText
  aliasText := aliasText
  compositeText := compositeText
  methodsText := methodsText config
  required := annotationImports

theorem declarations_eq (config : Config) (outline : Outline) :
    declarations config outline = (renderers config).declarations outline := by
  have required : (renderers config).required outline = annotationImports outline := rfl
  rw [Renderers.declarations, required]
  unfold declarations Renderers.methodSection annotationImports
  split <;> split <;> rfl

/-- The names that an outline imports. -/
def importsOf (outline : Outline) : List String :=
  Text.sortedSet <| (outline.classes.mapM classText).imports ++
    ((outline.enums.mapM enumText).imports ++
      ((outline.composites.mapM fun entry => compositeText entry.2).imports ++
        annotationImports outline))

theorem imports_methodsText (config : Config) (methods : List Method) :
    (methodsText config methods).imports = [] :=
  Rendering.imports_bind_eq_nil (Rendering.imports_mapM_eq_nil fun _ => rfl) fun _ =>
    Rendering.imports_bind_eq_nil (Rendering.imports_mapM_eq_nil fun _ => rfl) fun _ => rfl

/-- Aliases and methods need no names, so that the configuration has no part in the imports. -/
theorem sortedSet_imports_declarations {texts : List String}
    (rendered : (declarations config outline).result = .ok texts) :
    Text.sortedSet (declarations config outline).imports = importsOf outline := by
  have aliases : (outline.aliases.mapM (renderers config).aliasText).imports = [] :=
    Rendering.imports_mapM_eq_nil fun declared => Rendering.imports_bind_eq_nil rfl fun _ => rfl
  have methods : ((renderers config).methodSection outline.methods).imports = [] := by
    rw [Renderers.imports_methodSection]
    exact (congrArg _ (imports_methodsText config outline.methods)).trans (ite_self _)
  rw [declarations_eq] at rendered ⊢
  rw [Renderers.imports_declarations rendered, aliases, methods]
  rfl

/-! ## Names that are asked for -/

theorem mem_imports_classText {declared : Outline.Class} {text : String}
    (rendered : (classText declared).result = .ok text) {field : Field}
    (owned : field ∈ declared.fields) (renamed : Name.withoutMarks field.name ≠ field.name) :
    "kotlinx.serialization.SerialName" ∈ (classText declared).imports := by
  obtain ⟨properties, found, _⟩ := Rendering.result_bind_eq_ok_iff.mp rendered
  obtain ⟨lines, _, written⟩ := Rendering.exists_mem_of_result_mapM found owned
  rw [classText, Rendering.imports_bind_eq found, List.mem_append,
    Rendering.mem_imports_mapM_iff found]
  refine .inl ⟨field, owned, ?_⟩
  obtain ⟨type, spelled, _⟩ := Rendering.result_bind_eq_ok_iff.mp written
  rw [propertyLines, Rendering.imports_bind_eq spelled, serialName?, if_neg renamed]
  exact List.mem_append_right _ List.mem_cons_self

theorem mem_imports_enumText {declared : Outline.Enum} {text path : String}
    (rendered : (enumText declared).result = .ok text)
    (among : path ∈ enumImports declared.isString) : path ∈ (enumText declared).imports := by
  obtain ⟨members, found, rendered⟩ := Rendering.result_bind_eq_ok_iff.mp rendered
  rw [enumText, Rendering.imports_bind_eq found]
  exact List.mem_append_right _ (List.mem_append_left _ among)

/-- A variant asks for what the test of an element needs. -/
theorem imports_primitiveTest_subset {variant : Variant} {text : VariantText}
    (rendered : (variantText variant).result = .ok text) (primitive : text.shape = .primitive) :
    (primitiveTest variant.type).imports ⊆ (variantText variant).imports := by
  have isOf := isOf_of_variantText rendered
  have shaped : (liftM (jsonShape variant.type) : Rendering _).result = .ok .primitive :=
    primitive ▸ isOf.shape
  have spelled : (liftM (typeText variant.type) : Rendering _).result = .ok text.type := isOf.type
  rw [variantText, Rendering.imports_bind_eq shaped, Rendering.imports_bind_eq spelled, if_pos rfl,
    Rendering.imports_bind_eq (isOf.test primitive)]
  intro path among
  exact List.mem_append_right _ (List.mem_append_right _ (List.mem_append_left _ among))

section UnionImports

variable {name text path : String} {variants : List Variant}
  (rendered : (unionText name variants).result = .ok text)

include rendered

theorem exists_imports_unionText :
    ∃ texts, (variants.mapM variantText).result = .ok texts ∧
      (unionText name variants).imports = unionImports ++ ((variants.mapM variantText).imports ++
        discriminationImports (texts.map (·.shape))) := by
  obtain ⟨first, rest, found, _⟩ := exists_texts_of_unionText rendered
  refine ⟨first :: rest, found, ?_⟩
  have required (names : List String) : (Rendering.require names).result = .ok () := rfl
  rw [unionText, Rendering.imports_bind_eq (required _), Rendering.imports_bind_eq found,
    Rendering.imports_bind_eq (required _)]
  simp [Rendering.require, Pure.pure]

theorem mem_imports_of_primitive (told : IsToldBy variants .primitive) :
    "kotlinx.serialization.json.JsonPrimitive" ∈ (unionText name variants).imports := by
  obtain ⟨texts, found, imports⟩ := exists_imports_unionText rendered
  rw [imports, discriminationImports, (isToldBy_of_mapM found).unique told]
  exact List.mem_append_right _ (List.mem_append_right _ (List.mem_singleton.mpr rfl))

variable {variant : Variant} (owned : variant ∈ variants)

include owned

theorem mem_imports_of_test (told : IsToldBy variants .primitive) {category : Option Category}
    (inner : innerCategory variant.type = .ok category) {property : String}
    (tested : testProperty? category = some property) :
    "kotlinx.serialization.json." ++ property ∈ (unionText name variants).imports := by
  obtain ⟨texts, found, imports⟩ := exists_imports_unionText rendered
  rw [imports]
  refine List.mem_append_right _ (List.mem_append_left _ ?_)
  refine (Rendering.mem_imports_mapM_iff found).mpr ⟨variant, owned, ?_⟩
  obtain ⟨text, among, written⟩ := Rendering.exists_mem_of_result_mapM found owned
  have branch := (isToldBy_of_mapM found).unique told
  have primitive := all_primitive_of_discrimination branch _ (List.mem_map_of_mem among)
  have given : (liftM (innerCategory variant.type) : Rendering _).result = .ok category := inner
  refine imports_primitiveTest_subset written primitive ?_
  rw [primitiveTest, Rendering.imports_bind_eq given, tested]
  exact List.mem_append_right _ List.mem_cons_self

theorem mem_imports_of_element (told : IsToldBy variants .mixed) {shape : JsonShape}
    (shaped : jsonShape variant.type = .ok shape) :
    "kotlinx.serialization.json." ++ shape.elementClass ∈ (unionText name variants).imports := by
  obtain ⟨texts, found, imports⟩ := exists_imports_unionText rendered
  rw [imports, discriminationImports, (isToldBy_of_mapM found).unique told]
  refine List.mem_append_right _ (List.mem_append_right _ ?_)
  obtain ⟨text, among, written⟩ := Rendering.exists_mem_of_result_mapM found owned
  have same : text.shape = shape :=
    Except.ok.inj ((isOf_of_variantText written).shape.symm.trans shaped)
  exact same ▸ List.mem_map_of_mem (List.mem_map_of_mem among)

end UnionImports

theorem isSufficient_importsOf {texts : List String}
    (rendered : (declarations config outline).result = .ok texts) :
    IsSufficient outline (importsOf outline) := by
  rw [← sortedSet_imports_declarations rendered]
  rw [declarations_eq] at rendered ⊢
  have annotates (several : outline.classes ≠ [] ∨ outline.enums ≠ [] ∨ outline.composites ≠ []) :
      "kotlinx.serialization.Serializable" ∈ annotationImports outline := by
    rw [annotationImports, if_pos (by simpa [or_iff_not_imp_left] using several)]
    exact List.mem_singleton_self _
  intro path uses
  rw [Text.mem_sortedSet, Renderers.mem_imports_iff_needs rendered]
  cases uses with
  | annotatedRecord listed => exact .required (annotates (.inl (List.ne_nil_of_mem listed)))
  | annotatedEnum listed => exact .required (annotates (.inr (.inl (List.ne_nil_of_mem listed))))
  | annotatedComposite listed =>
      exact .required (annotates (.inr (.inr (List.ne_nil_of_mem listed))))
  | property listed owned renamed =>
      obtain ⟨text, written⟩ := Renderers.succeeds_of_class rendered listed
      exact .record listed (mem_imports_classText written owned renamed)
  | @member declared member listed strings owned =>
      obtain ⟨text, written⟩ := Renderers.succeeds_of_enum rendered listed
      refine .enumeration listed (mem_imports_enumText written ?_)
      rw [strings]
      exact List.mem_cons_self
  | serializer listed values among =>
      obtain ⟨text, written⟩ := Renderers.succeeds_of_enum rendered listed
      refine .enumeration listed (mem_imports_enumText written ?_)
      rwa [values]
  | union listed among =>
      obtain ⟨text, written⟩ := Renderers.succeeds_of_composite rendered listed
      obtain ⟨_, _, imports⟩ := exists_imports_unionText written
      exact .composite listed (imports ▸ List.mem_append_left _ among)
  | primitive listed told =>
      obtain ⟨text, written⟩ := Renderers.succeeds_of_composite rendered listed
      exact .composite listed (mem_imports_of_primitive written told)
  | test listed told owned inner tested =>
      obtain ⟨text, written⟩ := Renderers.succeeds_of_composite rendered listed
      exact .composite listed (mem_imports_of_test written owned told inner tested)
  | element listed told owned shaped =>
      obtain ⟨text, written⟩ := Renderers.succeeds_of_composite rendered listed
      exact .composite listed (mem_imports_of_element written owned told shaped)

/-- All names of the declarations are accounted for. -/
theorem isCovered_declarations {texts : List String}
    (rendered : (declarations config outline).result = .ok texts) :
    ∀ text ∈ texts, IsCovered outline (importsOf outline) text := by
  have sufficient := isSufficient_importsOf rendered
  rw [declarations_eq] at rendered
  intro text among
  cases (Renderers.mem_iff_writes rendered).mp among with
  | record listed written => exact isCovered_classText sufficient listed written
  | enumeration listed written => exact isCovered_enumText listed sufficient written
  | renamed listed written => exact isCovered_aliasText listed written
  | @composite entry listed written =>
      obtain ⟨key, composite⟩ := entry
      cases composite with
      | union name variants => exact isCovered_unionText listed sufficient written
      | wrapper name field wrapped => exact isCovered_wrapperText sufficient listed written
  | methods several written => exact isCovered_methodsText written

/-- The names that a Kotlin file imports depend on its outline alone, and not on the configuration
or on outlines before.  They suffice: whatever the declarations use of the serialization library is
among them, and every name in the declarations is imported, known without an import or taken over
from the outline. -/
theorem imports_suffice :
    ∃ importsOf : Outline → List String,
      ∀ (config : Config) (session : Session) (outlines : List Outline),
        List.Forall₂ (fun outline result => ∀ file, result = .ok file →
          ∃ texts, file = Layout.file (fileStart config outline.comment (importsOf outline)) texts ∧
            (declarations config outline).result = .ok texts ∧
            (∀ path, Uses outline path → path ∈ importsOf outline) ∧
            ∀ text ∈ texts, ∀ word ∈ lexis.words text, Stems outline (importsOf outline) word)
        outlines ((Session.renderAll config .kotlin outlines).run session).1 := by
  refine ⟨importsOf, fun config session outlines => ?_⟩
  rw [Session.renderAll_eq, List.forall₂_map_right_iff, List.forall₂_same]
  intro outline _ file written
  obtain ⟨texts, rendered, rfl⟩ := except_map_eq_ok_iff.mp written
  refine ⟨texts, by rw [sortedSet_imports_declarations rendered], rendered,
    isSufficient_importsOf rendered, ?_⟩
  exact isCovered_declarations rendered

end ProtocolCodegen.Kotlin
