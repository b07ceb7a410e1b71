import Mathlib
import ProtocolCodegen.Proofs.Outline.TypeNames
import ProtocolCodegen.Proofs.Target.RenderableTypes
import ProtocolCodegen.Proofs.Target.Rendering

/-!
# Kotlin: shapes of the variants of unions

The serializer of a union tells its variants apart by the JSON elements that their values are
written as.  What a declared type is written as follows from its declaration, at the end of a chain
of aliases, while the serializer is generated from the type alone and takes every declared type for
an object.
-/

namespace ProtocolCodegen.Kotlin

open Outline

/-- The JSON element that the values of a category are written as, if it is always the same. -/
def elementOf? : Category → Option JsonShape
  | .string | .integer | .uinteger | .decimal | .boolean => some .primitive
  | .object => some .object
  | .array => some .array
  | .null | .any => none

/-- The JSON element that the values of a type are written as.  A member of an enumeration is
written as its value, a record as an object, and an alias as the type for which it stands. -/
inductive IsWrittenAs (outline : Outline) : Descriptor → JsonShape → Prop where
  | scalar {name : String} {category : Category} {arguments : List Descriptor}
      {constant : Option String} {shape : JsonShape} (element : elementOf? category = some shape) :
      IsWrittenAs outline ⟨.scalar, name, some category, arguments, constant⟩ shape
  | enumeration {name : String} {category : Option Category} {arguments : List Descriptor}
      {constant : Option String} (declared : name ∈ outline.enums.map (·.name)) :
      IsWrittenAs outline ⟨.named, name, category, arguments, constant⟩ .primitive
  | record {name : String} {category : Option Category} {arguments : List Descriptor}
      {constant : Option String} (declared : name ∈ outline.classes.map (·.name)) :
      IsWrittenAs outline ⟨.named, name, category, arguments, constant⟩ .object
  | renamed {declared : Alias} {name : String} {category : Option Category}
      {arguments : List Descriptor} {constant : Option String} {target : Descriptor}
      {shape : JsonShape} (listed : declared ∈ outline.aliases) (named : declared.name = name)
      (stands : declared.target = some target) (written : IsWrittenAs outline target shape) :
      IsWrittenAs outline ⟨.named, name, category, arguments, constant⟩ shape
  | array {name : String} {category : Option Category} {arguments : List Descriptor}
      {constant : Option String} :
      IsWrittenAs outline ⟨.array, name, category, arguments, constant⟩ .array
  | map {name : String} {category : Option Category} {arguments : List Descriptor}
      {constant : Option String} :
      IsWrittenAs outline ⟨.map, name, category, arguments, constant⟩ .object
  | optional {name : String} {category : Option Category} {inner : Descriptor}
      {others : List Descriptor} {constant : Option String} {shape : JsonShape}
      (written : IsWrittenAs outline inner shape) :
      IsWrittenAs outline ⟨.optional, name, category, inner :: others, constant⟩ shape

/-- Whether a type is a declared one, at any depth of optional types. -/
def isDeclared : Descriptor → Bool
  | ⟨.optional, _, _, inner :: _, _⟩ => isDeclared inner
  | type => type.kind == .named

section Outlines

variable {outline : Outline} {type : Descriptor} {shape shape' : JsonShape}

theorem IsWrittenAs.unique (distinct : outline.typeNames.Nodup)
    (written : IsWrittenAs outline type shape) (written' : IsWrittenAs outline type shape') :
    shape = shape' := by
  have ⟨classEnum, classAlias, enumAlias⟩ := disjoint_declarations distinct
  induction written generalizing shape' with
  | scalar element =>
      cases written' with
      | scalar element' => exact Option.some.inj (element.symm.trans element')
  | enumeration declared =>
      cases written' with
      | enumeration => rfl
      | record declared' => exact absurd declared (classEnum declared')
      | renamed listed named =>
          exact absurd (List.mem_map.mpr ⟨_, listed, named⟩) (enumAlias declared)
  | record declared =>
      cases written' with
      | enumeration declared' => exact absurd declared' (classEnum declared)
      | record => rfl
      | renamed listed named =>
          exact absurd (List.mem_map.mpr ⟨_, listed, named⟩) (classAlias declared)
  | renamed listed named stands written induction =>
      have among := List.mem_map.mpr ⟨_, listed, named⟩
      cases written' with
      | enumeration declared' => exact absurd among (enumAlias declared')
      | record declared' => exact absurd among (classAlias declared')
      | renamed listed' named' stands' written' =>
          obtain rfl := eq_of_alias_names distinct listed listed' (named.trans named'.symm)
          obtain rfl := Option.some.inj (stands.symm.trans stands')
          exact induction written'
  | array => cases written'; rfl
  | map => cases written'; rfl
  | optional written induction =>
      cases written' with
      | optional written' => exact induction written'

theorem jsonShape_of_isDeclared (declared : isDeclared type = true) :
    jsonShape type = .ok .object := by
  induction type using isDeclared.induct with
  | case1 name category inner others constant induction =>
      rw [isDeclared] at declared
      rw [jsonShape, induction declared]
  | case2 type other =>
      rw [isDeclared.eq_2 type other, beq_iff_eq] at declared
      obtain ⟨kind, name, category, arguments, constant⟩ := type
      obtain rfl : kind = .named := declared
      rfl

theorem IsWrittenAs.jsonShape_of_not_isDeclared (written : IsWrittenAs outline type shape)
    (plain : isDeclared type = false) : jsonShape type = .ok shape := by
  induction written with
  | @scalar name category _ _ shape element => cases category <;> cases element <;> rfl
  | enumeration | record | renamed => cases plain
  | array => rfl
  | map => rfl
  | optional written induction => exact induction plain

/-- A type that is always written as one element is taken for that, unless it is a declared type
which is not written as an object. -/
theorem IsWrittenAs.jsonShape_eq_iff (written : IsWrittenAs outline type shape) :
    jsonShape type = .ok shape ↔ (isDeclared type = true → shape = .object) := by
  cases declared : isDeclared type with
  | false =>
      exact iff_of_true (written.jsonShape_of_not_isDeclared declared) fun given =>
        absurd given Bool.false_ne_true
  | true =>
      rw [jsonShape_of_isDeclared declared, Except.ok.injEq, eq_comm]
      simp

end Outlines

theorem succeeds_variantText {variant : Variant} (wellFormed : variant.type.IsWellFormed) :
    (variantText variant).Succeeds := by
  obtain ⟨shape, shaped⟩ := exists_jsonShape_eq_ok wellFormed
  obtain ⟨type, spelled⟩ := exists_typeText_eq_ok wellFormed
  obtain ⟨test, tested⟩ := exists_primitiveTest_eq_ok wellFormed
  rw [variantText, shaped, spelled]
  refine Rendering.Succeeds.bind ⟨shape, rfl⟩ fun _ => .bind ⟨type, rfl⟩ fun _ => ?_
  dsimp only
  split
  · exact .bind ⟨test, tested⟩ fun _ => Rendering.succeeds_pure _
  · exact Rendering.succeeds_pure _

/-- The code of a variant is written from its identifier, from the spelling and the shape of its
type, and from the test of an element if the shape is primitive. -/
structure VariantText.IsOf (text : VariantText) (variant : Variant) : Prop where
  ident : text.ident = variant.ident
  type : typeText variant.type = .ok text.type
  shape : jsonShape variant.type = .ok text.shape
  test : text.shape = .primitive → (primitiveTest variant.type).result = .ok text.test

theorem isOf_of_variantText {variant : Variant} {text : VariantText}
    (rendered : (variantText variant).result = .ok text) : text.IsOf variant := by
  rw [variantText, Rendering.result_bind_eq_ok_iff] at rendered
  obtain ⟨shape, shaped, rendered⟩ := rendered
  rw [Rendering.result_bind_eq_ok_iff] at rendered
  obtain ⟨type, spelled, rendered⟩ := rendered
  dsimp only at rendered
  split at rendered
  · obtain ⟨test, tested, same⟩ := Rendering.result_bind_eq_ok_iff.mp rendered
    cases same
    exact ⟨rfl, spelled, shaped, fun _ => tested⟩
  · cases rendered
    exact ⟨rfl, spelled, shaped, fun primitive => absurd primitive ‹_›⟩

/-- In Kotlin, every variant of a union has a shape by which the serializer tells it apart.  Where
the values of its type are always written as one JSON element, that is the shape, unless the type is
a declared one.  All declared types are taken for objects, so that the shape is wrong for
enumerations and for aliases of other types than objects.  Where type names are distinct, a type is
written as one element at most. -/
theorem union_shapes (overrides : Dictionary String Category) (model : Model)
    (includesProposed includesMethods : Bool) (selection : Option (List String))
    (events : List Event) :
    let analyzer : Analyzer :=
      .ofModel model (profile.withOverrides overrides) includesProposed selection
    let outline := (analyzer.analyze includesMethods ⟨[], events⟩).1
    (outline.typeNames.Nodup → ∀ type shape shape', IsWrittenAs outline type shape →
      IsWrittenAs outline type shape' → shape = shape') ∧
    ∀ key name variants, (key, .union name variants) ∈ outline.composites →
      ∃ texts, (variants.mapM variantText).result = .ok texts ∧
        List.Forall₂ (fun variant text =>
          jsonShape variant.type = .ok text.shape ∧
          (isDeclared variant.type = true → text.shape = .object) ∧
          ∀ shape, IsWrittenAs outline variant.type shape →
            (text.shape = shape ↔ (isDeclared variant.type = true → shape = .object)))
          variants texts := by
  intro analyzer outline
  refine ⟨fun distinct _ _ _ => IsWrittenAs.unique distinct, fun key name variants listed => ?_⟩
  have wellFormed {variant : Variant} (among : variant ∈ variants) :
      variant.type.IsWellFormed :=
    Analyzer.isWellFormed_of_hasType (.composite listed (List.mem_map_of_mem among))
  obtain ⟨texts, found⟩ : (variants.mapM variantText).Succeeds :=
    Rendering.succeeds_mapM fun variant among => succeeds_variantText (wellFormed among)
  refine ⟨texts, found, (Rendering.result_mapM_eq_ok_iff.mp found).imp ?_⟩
  intro variant text rendered
  have told := (isOf_of_variantText rendered).shape
  refine ⟨told, fun declared => ?_, fun shape written => ?_⟩
  · exact Except.ok.inj (told.symm.trans (jsonShape_of_isDeclared declared))
  · rw [← written.jsonShape_eq_iff, told, Except.ok.injEq]

/-- A record and a string are told apart as an object and a primitive. -/
theorem union_shapes_of_range_and_string :
    let members : List Node := [.reference (.root "first") "Range", .base (.root "second") "string"]
    let range : Structure := { (default : Structure) with name := "Range" }
    let record : Structure :=
      { (default : Structure) with
        name := "Options"
        properties := [{ (default : Property Node) with
          name := "range", type := .union (.root "type") members }] }
    let model : Model := { (default : Model) with structures := [range, record] }
    let analyzer : Analyzer := .ofModel model (profile.withOverrides []) false none
    let outline := (analyzer.analyze true ⟨[], []⟩).1
    let variants : List Variant :=
      [⟨"Range", .ofName .named "Range"⟩, ⟨"String", .scalar .string "String"⟩]
    outline.typeNames.Nodup ∧
      ("Or_Range_String", .union "Or_Range_String" variants) ∈ outline.composites ∧
      (∀ shape, IsWrittenAs outline (.ofName .named "Range") shape → shape = .object) ∧
      ∃ texts, (variants.mapM variantText).result = .ok texts ∧
        List.Forall₂ (fun variant text => IsWrittenAs outline variant.type text.shape)
          variants texts := by
  intro members range record model analyzer outline variants
  have steps : analyzer.steps true = [.lower (some (.union (.root "type") members))] := by cbv
  have enrolled : (analyzer.lowerer.enroll (.union (.root "type") members) ⟨[], []⟩).composites =
      [("Or_Range_String", .union "Or_Range_String" variants)] := by cbv
  have listed : ("Or_Range_String", .union "Or_Range_String" variants) ∈ outline.composites := by
    rw [Analyzer.composites_of_single_step steps enrolled]
    exact List.mem_singleton_self _
  have names : outline.typeNames = ["Options", "Range", "Or_Range_String"] := by cbv
  have distinct : outline.typeNames.Nodup := by
    rw [names]
    decide
  have classes : outline.classes.map (·.name) = ["Options", "Range"] := by cbv
  have object : IsWrittenAs outline (.ofName .named "Range") .object :=
    .record (classes ▸ List.mem_cons_of_mem _ List.mem_cons_self)
  have primitive : IsWrittenAs outline (.scalar .string "String") .primitive := .scalar rfl
  obtain ⟨unique, each⟩ := union_shapes [] model false true none []
  obtain ⟨texts, found, told⟩ := each _ _ _ listed
  refine ⟨distinct, listed, fun shape written => unique distinct _ _ _ written object, texts, found,
    ?_⟩
  change List.Forall₂ _ [_, _] texts at told
  cases told with
  | cons toldFirst later =>
      cases later with
      | cons toldSecond last =>
          cases last
          have first := (toldFirst.2.2 _ object).mpr fun _ => rfl
          have plain : ¬isDeclared (.scalar .string "String") = true := by decide
          have second := (toldSecond.2.2 _ primitive).mpr fun declared => absurd declared plain
          exact .cons (first ▸ object) (.cons (second ▸ primitive) .nil)

/-- An enumeration and a record are both taken for objects. -/
theorem jsonShape_eq_object_of_enumeration :
    let members : List Node := [.reference (.root "first") "Kind",
      .reference (.root "second") "Options"]
    let record : Structure :=
      { (default : Structure) with
        name := "Options"
        properties := [{ (default : Property Node) with
          name := "mode", type := .union (.root "type") members }] }
    let kind : Enumeration := { (default : Enumeration) with name := "Kind" }
    let model : Model :=
      { (default : Model) with structures := [record], enumerations := [kind] }
    let analyzer : Analyzer := .ofModel model (profile.withOverrides []) false none
    let outline := (analyzer.analyze true ⟨[], []⟩).1
    let variant : Variant := ⟨"Kind", .ofName .named "Kind"⟩
    outline.typeNames = ["Options", "Kind", "Or_Kind_Options"] ∧
      outline.composites = [("Or_Kind_Options",
        .union "Or_Kind_Options" [variant, ⟨"Options", .ofName .named "Options"⟩])] ∧
      IsWrittenAs outline variant.type .primitive ∧ jsonShape variant.type = .ok .object := by
  intro members record kind model analyzer outline variant
  have steps : analyzer.steps true = [.lower (some (.union (.root "type") members))] := by cbv
  have enrolled : (analyzer.lowerer.enroll (.union (.root "type") members) ⟨[], []⟩).composites =
      [("Or_Kind_Options",
        .union "Or_Kind_Options" [variant, ⟨"Options", .ofName .named "Options"⟩])] := by cbv
  have enums : outline.enums.map (·.name) = ["Kind"] := by cbv
  exact ⟨by cbv, Analyzer.composites_of_single_step steps enrolled,
    .enumeration (enums ▸ List.mem_cons_self), rfl⟩

end ProtocolCodegen.Kotlin
