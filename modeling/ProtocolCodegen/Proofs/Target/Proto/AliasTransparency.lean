import Mathlib
import ProtocolCodegen.Outline.Analysis
import ProtocolCodegen.Proofs.Target.Proto.Spelling
import ProtocolCodegen.Target.Proto.File

/-!
# Proto: aliases in place of their targets

Where a type is spelled, an alias counts as its target.  The label of a field is the exception: it
looks at the type as it is written, and an alias does not show that its target can be absent.
-/

namespace ProtocolCodegen.Proto

open Outline

variable {aliases : AliasTable} {descriptor next : Descriptor} {target : Option Descriptor}

theorem fieldText_of_missing (missing : aliasOf? aliases descriptor = some none) :
    fieldText aliases descriptor = .ok profile.baseTypes.anyType := by
  rw [fieldText, spellingBound, fieldTextWithin, resolve_of_missing missing]

theorem fieldText_of_aliased (stands : aliasOf? aliases descriptor = some target) :
    fieldText aliases descriptor = fieldTextOf aliases target := by
  cases target with
  | none => exact fieldText_of_missing stands
  | some next => exact text_eq_of_resolve_eq .field (resolve_of_follows stands)

theorem singleText_of_follows (follows : Follows aliases descriptor next) :
    singleText aliases descriptor = singleText aliases next :=
  text_eq_of_resolve_eq .single (resolve_of_follows follows)

theorem variantName_of_follows (follows : Follows aliases descriptor next) (ident : String) :
    variantName aliases ⟨ident, descriptor⟩ = variantName aliases ⟨ident, next⟩ := by
  simp only [variantName, resolve_of_follows follows]

theorem wrapperLines_of_follows (follows : Follows aliases descriptor next) (name field : String) :
    wrapperLines aliases name field descriptor = wrapperLines aliases name field next := by
  rw [wrapperLines, wrapperLines, fieldText_of_aliased follows, fieldTextOf]

/-! ## Labels -/

/-- A type with the label of a field. -/
def withLabel (nullable : Bool) (type : String) : String :=
  (if nullable && !isCollection type then "optional " else "") ++ type

theorem withLabel_of_collection {nullable : Bool} {type : String}
    (collection : isCollection type = true) : withLabel nullable type = type := by
  simp [withLabel, collection]

theorem withLabel_false (type : String) : withLabel false type = type := by
  simp [withLabel]

theorem withLabel_true {type : String} (single : isCollection type = false) :
    withLabel true type = "optional " ++ type := by
  simp [withLabel, single]

theorem labelledType_eq_map (field : Field) : labelledType aliases field =
    (fieldTextOf aliases field.type).map (withLabel (isNullable field)) := by
  rw [labelledType]
  cases fieldTextOf aliases field.type <;> rfl

theorem isNullable_of_aliased {field : Field} (typed : field.type = some descriptor)
    (stands : aliasOf? aliases descriptor = some target) : isNullable field = field.optional := by
  simp [isNullable, typed, kind_of_aliasOf? stands]

/-- Only its target would show that the values of a field can be absent. -/
def HidesAbsence (field : Field) (target : Option Descriptor) : Prop :=
  field.optional = false ∧ ∃ next, target = some next ∧ next.kind = .optional

theorem isNullable_target_of_hidesAbsence {field : Field} (hides : HidesAbsence field target) :
    isNullable { field with type := target } = true := by
  obtain ⟨_, next, rfl, optional⟩ := hides
  simp [isNullable, optional]

theorem isNullable_target_of_not_hidesAbsence {field : Field}
    (shows : ¬HidesAbsence field target) :
    isNullable { field with type := target } = field.optional := by
  cases isOptional : field.optional with
  | true => simp [isNullable]
  | false =>
      cases target with
      | none => simp [isNullable]
      | some next =>
          have required : next.kind ≠ .optional :=
            fun optional => shows ⟨isOptional, next, rfl, optional⟩
          simp [isNullable, required]

/-- A field is labelled if its type is written as the target of an alias, and not if it is written
as the alias. -/
def LosesLabel (aliases : AliasTable) (field : Field) (target : Option Descriptor) : Prop :=
  HidesAbsence field target ∧
    ∃ type, fieldTextOf aliases target = .ok type ∧ isCollection type = false

theorem labelledType_of_losesLabel {field : Field} (typed : field.type = some descriptor)
    (stands : aliasOf? aliases descriptor = some target)
    (loses : LosesLabel aliases field target) :
    ∃ type, labelledType aliases field = .ok type ∧
      labelledType aliases { field with type := target } = .ok ("optional " ++ type) := by
  obtain ⟨hides, type, spelled, single⟩ := loses
  refine ⟨type, ?_, ?_⟩
  · rw [labelledType_eq_map, typed, fieldTextOf, fieldText_of_aliased stands, spelled,
      isNullable_of_aliased typed stands, hides.1, Except.map, withLabel_false]
  · rw [labelledType_eq_map, spelled, isNullable_target_of_hidesAbsence hides, Except.map,
      withLabel_true single]

theorem labelledType_of_not_losesLabel {field : Field} (typed : field.type = some descriptor)
    (stands : aliasOf? aliases descriptor = some target)
    (keeps : ¬LosesLabel aliases field target) :
    labelledType aliases field = labelledType aliases { field with type := target } := by
  rw [labelledType_eq_map, labelledType_eq_map, typed, fieldTextOf, fieldText_of_aliased stands,
    isNullable_of_aliased typed stands]
  by_cases hides : HidesAbsence field target
  · cases spelled : fieldTextOf aliases target with
    | error => rfl
    | ok type =>
        have collection : isCollection type = true := by
          by_contra single
          exact keeps ⟨hides, type, spelled, Bool.eq_false_of_not_eq_true single⟩
        rw [Except.map, Except.map, withLabel_of_collection collection,
          withLabel_of_collection collection]
  · rw [isNullable_target_of_not_hidesAbsence hides]

/-- A type is spelled and a member of a union is named as if the target of an alias were written
instead of the alias, whatever ways aliases lead.  So is the type of a field, and the label of a
field is the same exactly unless the field is not optional itself, the target can be absent, and it
is neither a list nor a dictionary; then the alias lacks the label. -/
theorem spells_alias_as_target {outline : Outline} {descriptor : Descriptor}
    {target : Option Descriptor}
    (stands : aliasOf? (aliasTable outline) descriptor = some target) :
    let aliases := aliasTable outline
    (∀ field : Field, field.type = some descriptor →
      fieldTextOf aliases field.type = fieldTextOf aliases target ∧
      (labelledType aliases field = labelledType aliases { field with type := target } ↔
        ¬LosesLabel aliases field target) ∧
      (LosesLabel aliases field target →
        ∃ type, labelledType aliases field = .ok type ∧
          labelledType aliases { field with type := target } = .ok ("optional " ++ type))) ∧
    ∀ next, target = some next →
      (∀ ident, singleText aliases descriptor = singleText aliases next ∧
        variantName aliases ⟨ident, descriptor⟩ = variantName aliases ⟨ident, next⟩) ∧
      ∀ name field, wrapperLines aliases name field descriptor =
        wrapperLines aliases name field next := by
  intro aliases
  refine ⟨fun field typed => ⟨?_, ⟨?_, ?_⟩, ?_⟩, ?_⟩
  · rw [typed, fieldTextOf, fieldText_of_aliased stands]
  · intro same loses
    obtain ⟨type, plain, labelled⟩ := labelledType_of_losesLabel typed stands loses
    have equal : type = "optional " ++ type :=
      Except.ok.inj (plain.symm.trans (same.trans labelled))
    have longer := congrArg String.length equal
    rw [String.length_append] at longer
    exact absurd longer (by simp)
  · exact labelledType_of_not_losesLabel typed stands
  · exact labelledType_of_losesLabel typed stands
  · rintro next rfl
    exact ⟨fun ident => ⟨singleText_of_follows stands, variantName_of_follows stands ident⟩,
      wrapperLines_of_follows stands⟩

/-- An alias of an alias of a list: both spell the list, and a member of a union is a single type
without the ending of a scalar. -/
theorem spells_alias_as_target_of_chain :
    let declared (name : String) (type : Node) : TypeAlias :=
      { (default : TypeAlias) with name, type := some type }
    let names := declared "Names" (.array (.root "type") (.base (.root "element") "string"))
    let words := declared "Words" (.reference (.root "type") "Names")
    let model : Model := { (default : Model) with aliases := [names, words] }
    let analyzer : Analyzer := .ofModel model (profile.withOverrides []) false none
    let outline := (analyzer.analyze true ⟨[], []⟩).1
    let field : Field :=
      { (default : Field) with name := "words", type := some (.ofName .named "Words") }
    aliasOf? (aliasTable outline) (.ofName .named "Words") =
        some (some (.ofName .named "Names")) ∧
      labelledType (aliasTable outline) field = labelledType (aliasTable outline)
        { field with type := some (.ofName .named "Names") } ∧
      labelledType (aliasTable outline) field = .ok "repeated string" ∧
      singleText (aliasTable outline) (.ofName .named "Words") =
        .ok "google.protobuf.ListValue" ∧
      variantName (aliasTable outline) ⟨"Words", .ofName .named "Words"⟩ = "words" := by
  intro declared names words model analyzer outline field
  have table : aliasTable outline = [("Names", some (.array (.scalar .string "string"))),
      ("Words", some (.ofName .named "Names"))] := by cbv
  have stands : aliasOf? (aliasTable outline) (.ofName .named "Words") =
      some (some (.ofName .named "Names")) := by
    rw [table]
    decide
  have keeps : ¬LosesLabel (aliasTable outline) field (some (.ofName .named "Names")) := by
    rintro ⟨⟨_, next, same, optional⟩, _⟩
    cases same
    cases optional
  have transparent := spells_alias_as_target stands
  refine ⟨stands, (transparent.1 field rfl).2.1.mpr keeps, ?_, ?_, ?_⟩
  · rw [table]
    cbv
  · rw [table]
    cbv
  · rw [table]
    cbv

/-- A field of an alias of a text that can be absent has no label, and with the text itself it has
one. -/
theorem labelledType_ne_of_alias_of_absent :
    let name : TypeAlias :=
      { (default : TypeAlias) with
        name := "Name"
        type := some (.union (.root "type")
          [.base (.root "first") "string", .base (.root "second") "null"]) }
    let property : Property Node :=
      { (default : Property Node) with
        name := "name", type := .reference (.root "name") "Name" }
    let record : Structure :=
      { (default : Structure) with name := "Record", properties := [property] }
    let model : Model := { (default : Model) with structures := [record], aliases := [name] }
    let analyzer : Analyzer := .ofModel model (profile.withOverrides []) false none
    let outline := (analyzer.analyze true ⟨[], []⟩).1
    let text := Descriptor.optional (.scalar .string "string")
    ∃ field ∈ outline.classes.flatMap (·.fields), field.type = some (.ofName .named "Name") ∧
      IsAcyclic (aliasTable outline) ∧
      aliasOf? (aliasTable outline) (.ofName .named "Name") = some (some text) ∧
      labelledType (aliasTable outline) field = .ok "string" ∧
      labelledType (aliasTable outline) { field with type := some text } =
        .ok "optional string" := by
  intro name property record model analyzer outline text
  have table : aliasTable outline = [("Name", some text)] := by cbv
  have fields : outline.classes.flatMap (·.fields) =
      [⟨"name", some (.ofName .named "Name"), false, ⟨"", "", ""⟩, "Record"⟩] := by cbv
  have acyclic : IsAcyclic (aliasTable outline) := by
    intro descriptor aliased cycle
    obtain ⟨target, found⟩ := Option.ne_none_iff_exists'.mp aliased
    have named := kind_of_aliasOf? found
    have met {other : Descriptor}
        (leads : Relation.TransGen (Unwraps (aliasTable outline)) descriptor other) :
        other.kind ≠ .named ∧ (other.kind = .optional → other = text) := by
      induction leads with
      | single step =>
          cases step with
          | target follows =>
              have listed := Dictionary.mem_of_get? (kind_of_follows follows).2
              rw [table, List.mem_singleton, Prod.mk.injEq, Option.some.injEq] at listed
              rw [listed.2]
              exact ⟨by decide, fun _ => rfl⟩
          | present optional _ => simp [named] at optional
      | tail _ step induction =>
          cases step with
          | target follows => exact absurd (kind_of_follows follows).1 induction.1
          | present optional first =>
              rw [induction.2 optional] at first
              cases first
              exact ⟨by decide, fun optional => absurd optional (by decide)⟩
    exact (met cycle).1 named
  refine ⟨_, fields ▸ List.mem_cons_self, rfl, acyclic, ?_, ?_, ?_⟩
  · rw [table]
    decide
  · rw [table]
    cbv
  · rw [table]
    cbv

end ProtocolCodegen.Proto
