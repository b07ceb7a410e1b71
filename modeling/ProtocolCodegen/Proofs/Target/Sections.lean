import ProtocolCodegen.Outline.Basic
import ProtocolCodegen.Proofs.Target.Rendering

/-!
# Sections of a file

A generated file has one section for each kind of declaration and one for the methods.  Its texts
and the names that it needs from elsewhere are those of its declarations.
-/

namespace ProtocolCodegen

open Outline

/-- How the declarations of an outline are rendered, and the names that an outline needs apart from
them. -/
structure Renderers where
  classText : Outline.Class → Rendering String
  enumText : Outline.Enum → Rendering String
  aliasText : Alias → Rendering String
  compositeText : Composite → Rendering String
  methodsText : List Method → Rendering String
  required : Outline → List String

namespace Renderers

/-- The texts of methods, which are left out if there are none. -/
def methodSection (renderers : Renderers) (methods : List Method) : Rendering (List String) :=
  if methods.isEmpty then pure [] else List.singleton <$> renderers.methodsText methods

/-- The declarations of an outline, section by section. -/
def declarations (renderers : Renderers) (outline : Outline) : Rendering (List String) := do
  let classes ← outline.classes.mapM renderers.classText
  let enums ← outline.enums.mapM renderers.enumText
  let aliases ← outline.aliases.mapM renderers.aliasText
  let composites ← outline.composites.mapM fun entry => renderers.compositeText entry.2
  let methods ← renderers.methodSection outline.methods
  Rendering.require (renderers.required outline)
  return classes ++ enums ++ aliases ++ composites ++ methods

/-- A declaration of an outline is rendered as a text. -/
inductive Writes (renderers : Renderers) (outline : Outline) (text : String) : Prop where
  | record {declared : Outline.Class} (listed : declared ∈ outline.classes)
      (written : (renderers.classText declared).result = .ok text)
  | enumeration {declared : Outline.Enum} (listed : declared ∈ outline.enums)
      (written : (renderers.enumText declared).result = .ok text)
  | renamed {declared : Alias} (listed : declared ∈ outline.aliases)
      (written : (renderers.aliasText declared).result = .ok text)
  | composite {entry : String × Composite} (listed : entry ∈ outline.composites)
      (written : (renderers.compositeText entry.2).result = .ok text)
  | methods (several : outline.methods ≠ [])
      (written : (renderers.methodsText outline.methods).result = .ok text)

/-- A declaration of an outline needs a name from elsewhere. -/
inductive Needs (renderers : Renderers) (outline : Outline) (name : String) : Prop where
  | record {declared : Outline.Class} (listed : declared ∈ outline.classes)
      (asked : name ∈ (renderers.classText declared).imports)
  | enumeration {declared : Outline.Enum} (listed : declared ∈ outline.enums)
      (asked : name ∈ (renderers.enumText declared).imports)
  | renamed {declared : Alias} (listed : declared ∈ outline.aliases)
      (asked : name ∈ (renderers.aliasText declared).imports)
  | composite {entry : String × Composite} (listed : entry ∈ outline.composites)
      (asked : name ∈ (renderers.compositeText entry.2).imports)
  | methods (several : outline.methods ≠ [])
      (asked : name ∈ (renderers.methodsText outline.methods).imports)
  | required (asked : name ∈ renderers.required outline)

variable {renderers : Renderers} {outline : Outline}

theorem imports_methodSection (methods : List Method) :
    (renderers.methodSection methods).imports =
      if methods.isEmpty then [] else (renderers.methodsText methods).imports := by
  rw [methodSection]
  split
  · rfl
  · obtain ⟨imports, result⟩ := renderers.methodsText methods
    cases result <;> simp [Functor.map]

theorem mem_methodSection_iff {methods : List Method} {texts : List String} {text : String}
    (rendered : (renderers.methodSection methods).result = .ok texts) :
    text ∈ texts ↔ methods ≠ [] ∧ (renderers.methodsText methods).result = .ok text := by
  rw [methodSection] at rendered
  by_cases empty : methods = []
  · rw [if_pos (List.isEmpty_iff.mpr empty)] at rendered
    cases rendered
    simp [empty]
  · rw [if_neg (by simpa using empty), map_eq_pure_bind,
      Rendering.result_bind_eq_ok_iff] at rendered
    obtain ⟨own, found, rendered⟩ := rendered
    cases rendered
    rw [found, Except.ok.injEq, and_iff_right empty, eq_comm]
    exact List.mem_singleton

theorem succeeds_methodSection_iff {methods : List Method} :
    (renderers.methodSection methods).Succeeds ↔
      (methods ≠ [] → (renderers.methodsText methods).Succeeds) := by
  rw [methodSection]
  by_cases empty : methods = []
  · rw [if_pos (List.isEmpty_iff.mpr empty)]
    exact iff_of_true (Rendering.succeeds_pure []) fun several => absurd empty several
  · rw [if_neg (by simpa using empty), map_eq_pure_bind, Rendering.succeeds_bind_pure_iff]
    exact (imp_iff_right empty).symm

/-- The declarations of an outline are rendered if each of them is. -/
theorem succeeds_declarations_iff :
    (renderers.declarations outline).Succeeds ↔
      (∀ declared ∈ outline.classes, (renderers.classText declared).Succeeds) ∧
      (∀ declared ∈ outline.enums, (renderers.enumText declared).Succeeds) ∧
      (∀ declared ∈ outline.aliases, (renderers.aliasText declared).Succeeds) ∧
      (∀ entry ∈ outline.composites, (renderers.compositeText entry.2).Succeeds) ∧
      (outline.methods ≠ [] → (renderers.methodsText outline.methods).Succeeds) := by
  rw [← Rendering.succeeds_mapM_iff, ← Rendering.succeeds_mapM_iff, ← Rendering.succeeds_mapM_iff,
    ← Rendering.succeeds_mapM_iff, ← succeeds_methodSection_iff]
  refine Rendering.succeeds_bind_iff fun classes => Rendering.succeeds_bind_iff fun enums =>
    Rendering.succeeds_bind_iff fun aliases => Rendering.succeeds_bind_iff fun composites => ?_
  refine (Rendering.succeeds_bind_iff fun methods => ?_).trans (and_iff_left trivial)
  exact iff_true_intro ⟨_, rfl⟩

section Rendered

variable {texts : List String} (rendered : (renderers.declarations outline).result = .ok texts)

include rendered

theorem exists_sections :
    ∃ classes enums aliases composites methods,
      (outline.classes.mapM renderers.classText).result = .ok classes ∧
      (outline.enums.mapM renderers.enumText).result = .ok enums ∧
      (outline.aliases.mapM renderers.aliasText).result = .ok aliases ∧
      (outline.composites.mapM fun entry => renderers.compositeText entry.2).result =
        .ok composites ∧
      (renderers.methodSection outline.methods).result = .ok methods ∧
      texts = classes ++ enums ++ aliases ++ composites ++ methods := by
  obtain ⟨classes, foundClasses, rendered⟩ := Rendering.result_bind_eq_ok_iff.mp rendered
  obtain ⟨enums, foundEnums, rendered⟩ := Rendering.result_bind_eq_ok_iff.mp rendered
  obtain ⟨aliases, foundAliases, rendered⟩ := Rendering.result_bind_eq_ok_iff.mp rendered
  obtain ⟨composites, foundComposites, rendered⟩ := Rendering.result_bind_eq_ok_iff.mp rendered
  obtain ⟨methods, foundMethods, rendered⟩ := Rendering.result_bind_eq_ok_iff.mp rendered
  obtain ⟨_, _, rendered⟩ := Rendering.result_bind_eq_ok_iff.mp rendered
  exact ⟨classes, enums, aliases, composites, methods, foundClasses, foundEnums, foundAliases,
    foundComposites, foundMethods, (Except.ok.inj rendered).symm⟩

/-- The texts of a file are those of its declarations. -/
theorem mem_iff_writes {text : String} : text ∈ texts ↔ renderers.Writes outline text := by
  obtain ⟨_, _, _, _, _, foundClasses, foundEnums, foundAliases, foundComposites, foundMethods,
    rfl⟩ := exists_sections rendered
  simp only [List.mem_append, Rendering.mem_result_mapM_iff foundClasses,
    Rendering.mem_result_mapM_iff foundEnums, Rendering.mem_result_mapM_iff foundAliases,
    Rendering.mem_result_mapM_iff foundComposites, mem_methodSection_iff foundMethods]
  constructor
  · rintro ((((⟨_, listed, written⟩ | ⟨_, listed, written⟩) | ⟨_, listed, written⟩) |
      ⟨_, listed, written⟩) | ⟨several, written⟩)
    · exact .record listed written
    · exact .enumeration listed written
    · exact .renamed listed written
    · exact .composite listed written
    · exact .methods several written
  · intro writes
    cases writes with
    | record listed written => exact .inl (.inl (.inl (.inl ⟨_, listed, written⟩)))
    | enumeration listed written => exact .inl (.inl (.inl (.inr ⟨_, listed, written⟩)))
    | renamed listed written => exact .inl (.inl (.inr ⟨_, listed, written⟩))
    | composite listed written => exact .inl (.inr ⟨_, listed, written⟩)
    | methods several written => exact .inr ⟨several, written⟩

theorem imports_declarations :
    (renderers.declarations outline).imports =
      (outline.classes.mapM renderers.classText).imports ++
        ((outline.enums.mapM renderers.enumText).imports ++
          ((outline.aliases.mapM renderers.aliasText).imports ++
            ((outline.composites.mapM fun entry => renderers.compositeText entry.2).imports ++
              ((renderers.methodSection outline.methods).imports ++
                renderers.required outline)))) := by
  obtain ⟨_, _, _, _, _, foundClasses, foundEnums, foundAliases, foundComposites, foundMethods,
    _⟩ := exists_sections rendered
  have required : (Rendering.require (renderers.required outline)).result = .ok () := rfl
  rw [declarations, Rendering.imports_bind_eq foundClasses, Rendering.imports_bind_eq foundEnums,
    Rendering.imports_bind_eq foundAliases, Rendering.imports_bind_eq foundComposites,
    Rendering.imports_bind_eq foundMethods, Rendering.imports_bind_eq required]
  simp [Rendering.require, Pure.pure]

/-- The names that a file needs from elsewhere are those that its declarations need. -/
theorem mem_imports_iff_needs {name : String} :
    name ∈ (renderers.declarations outline).imports ↔ renderers.Needs outline name := by
  obtain ⟨_, _, _, _, _, foundClasses, foundEnums, foundAliases, foundComposites, _⟩ :=
    exists_sections rendered
  rw [imports_declarations rendered]
  simp only [List.mem_append, Rendering.mem_imports_mapM_iff foundClasses,
    Rendering.mem_imports_mapM_iff foundEnums, Rendering.mem_imports_mapM_iff foundAliases,
    Rendering.mem_imports_mapM_iff foundComposites, imports_methodSection]
  constructor
  · rintro (⟨_, listed, asked⟩ | ⟨_, listed, asked⟩ | ⟨_, listed, asked⟩ | ⟨_, listed, asked⟩ |
      asked | asked)
    · exact .record listed asked
    · exact .enumeration listed asked
    · exact .renamed listed asked
    · exact .composite listed asked
    · rw [List.mem_ite_nil_left] at asked
      exact .methods (fun none => asked.1 (List.isEmpty_iff.mpr none)) asked.2
    · exact .required asked
  · intro needs
    cases needs with
    | record listed asked => exact .inl ⟨_, listed, asked⟩
    | enumeration listed asked => exact .inr (.inl ⟨_, listed, asked⟩)
    | renamed listed asked => exact .inr (.inr (.inl ⟨_, listed, asked⟩))
    | composite listed asked => exact .inr (.inr (.inr (.inl ⟨_, listed, asked⟩)))
    | methods several asked =>
        refine .inr (.inr (.inr (.inr (.inl ?_))))
        rwa [if_neg (by simpa using several)]
    | required asked => exact .inr (.inr (.inr (.inr (.inr asked))))

theorem succeeds_of_class {declared : Outline.Class} (listed : declared ∈ outline.classes) :
    (renderers.classText declared).Succeeds :=
  (succeeds_declarations_iff.mp ⟨texts, rendered⟩).1 declared listed

theorem succeeds_of_enum {declared : Outline.Enum} (listed : declared ∈ outline.enums) :
    (renderers.enumText declared).Succeeds :=
  (succeeds_declarations_iff.mp ⟨texts, rendered⟩).2.1 declared listed

theorem succeeds_of_composite {entry : String × Composite} (listed : entry ∈ outline.composites) :
    (renderers.compositeText entry.2).Succeeds :=
  (succeeds_declarations_iff.mp ⟨texts, rendered⟩).2.2.2.1 entry listed

theorem succeeds_of_methods (several : outline.methods ≠ []) :
    (renderers.methodsText outline.methods).Succeeds :=
  (succeeds_declarations_iff.mp ⟨texts, rendered⟩).2.2.2.2 several

end Rendered

end Renderers
end ProtocolCodegen
