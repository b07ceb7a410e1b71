import Mathlib
import ProtocolCodegen.Proofs.Target.Proto.Endlessness
import ProtocolCodegen.Proofs.Target.Rendering

/-!
# Proto: when rendering ends

A file lists all aliases, and a type without an end needs an alias that is one.  So the file of an
outline is rendered exactly if no alias of the outline stands for an optional type that leads back
to itself.
-/

namespace ProtocolCodegen.Proto

open Outline

/-! ## Endless types need endless aliases -/

theorem exists_follows_or_size_lt {aliases : AliasTable} {first last : Descriptor}
    (leads : Relation.TransGen (Unwraps aliases) first last) :
    (∃ origin next, Follows aliases origin next ∧
      Relation.ReflTransGen (Unwraps aliases) next last) ∨ size last < size first := by
  induction leads with
  | single step =>
      cases step with
      | target follows => exact .inl ⟨_, _, follows, .refl⟩
      | present _ inside => exact .inr (size_argument_lt (List.mem_of_head? inside))
  | tail _ step induction =>
      cases step with
      | target follows => exact .inl ⟨_, _, follows, .refl⟩
      | present optional inside =>
          rcases induction with ⟨origin, next, follows, leads⟩ | smaller
          · exact .inl ⟨origin, next, follows, leads.tail (.present optional inside)⟩
          · exact .inr ((size_argument_lt (List.mem_of_head? inside)).trans smaller)

variable {outline : Outline}

/-- A way that comes back to itself passes an alias. -/
theorem exists_alias_of_isEndless {descriptor : Descriptor}
    (endless : IsEndless (aliasTable outline) descriptor) :
    ∃ declared ∈ outline.aliases,
      IsEndless (aliasTable outline) (.ofName .named declared.name) := by
  obtain ⟨optional, kind, _, cycle⟩ := endless
  rcases exists_follows_or_size_lt cycle with ⟨origin, next, follows, leads⟩ | smaller
  · obtain ⟨named, found⟩ := kind_of_follows follows
    obtain ⟨declared, listed, same, _⟩ := exists_alias_of_get? found
    have follows' : Follows (aliasTable outline) (.ofName .named declared.name) next := by
      rw [Follows, aliasOf?_eq_of_name rfl named same]
      exact follows
    exact ⟨declared, listed, optional, kind, .head (.target follows') leads, cycle⟩
  · exact absurd smaller (Nat.lt_irrefl _)

theorem exists_target_of_isEndless {name : String}
    (endless : IsEndless (aliasTable outline) (.ofName .named name)) :
    ∃ declared ∈ outline.aliases, ∃ target, declared.target = some target ∧
      IsEndless (aliasTable outline) target := by
  obtain ⟨optional, kind, leads, _⟩ := id endless
  rcases leads.cases_head with rfl | ⟨target, step, _⟩
  · cases kind
  · cases id step with
    | target follows =>
        obtain ⟨declared, listed, _, found⟩ := exists_alias_of_get? (kind_of_follows follows).2
        exact ⟨declared, listed, target, found, endless.unwraps step⟩
    | present optional _ => cases optional

/-! ## Files -/

/-- No alias of an outline is endless. -/
def AllEnd (outline : Outline) : Prop :=
  ∀ declared ∈ outline.aliases, ¬IsEndless (aliasTable outline) (.ofName .named declared.name)

theorem AllEnd.not_isEndless (allEnd : AllEnd outline) (descriptor : Descriptor) :
    ¬IsEndless (aliasTable outline) descriptor := by
  intro endless
  obtain ⟨declared, listed, endless⟩ := exists_alias_of_isEndless endless
  exact allEnd declared listed endless

theorem AllEnd.not_holdsEndless (allEnd : AllEnd outline) (descriptor : Descriptor) :
    ¬HoldsEndless (aliasTable outline) descriptor := by
  rintro ⟨_, _, _, argument, _, endless⟩
  exact allEnd.not_isEndless argument endless

/-- The comment on the aliases of an outline, if there are any. -/
def listedAliases (outline : Outline) : Rendering (List String) :=
  if outline.aliases.isEmpty then pure []
  else List.singleton <$> aliasesText (aliasTable outline) outline.aliases

theorem declarations_eq (outline : Outline) : declarations outline = (do
    let listed ← listedAliases outline
    let messages ← outline.classes.mapM (messageText (aliasTable outline))
    let unions ← unionsTexts (aliasTable outline) outline.composites
    let wrappers ← wrappersTexts (aliasTable outline) outline.composites
    return listed ++ outline.enums.map enumText ++ messages ++ unions ++ wrappers) := by
  rw [declarations, listedAliases]
  split <;> rfl

theorem not_exists_ok_of_error {α ε : Type} {result : Except ε α} {error : ε}
    (fails : result = .error error) : ¬∃ value, result = .ok value := by
  rintro ⟨value, found⟩
  rw [fails] at found
  cases found

section Lowered

variable {lowerer : Lowerer} (lowered : IsLoweredBy outline lowerer) {descriptor : Descriptor}

include lowered

theorem singleText_cases (contains : outline.Contains descriptor) :
    (¬IsEndless (aliasTable outline) descriptor ∧
      ∃ type, singleText (aliasTable outline) descriptor = .ok type) ∨
    (IsEndless (aliasTable outline) descriptor ∧
      singleText (aliasTable outline) descriptor = .error .endless) := by
  rcases singleText_spells lowered contains with ⟨type, spelled, _⟩ | ⟨spelled, _⟩
  · refine .inl ⟨fun endless => ?_, type, spelled⟩
    rw [singleText_eq_endless_iff.mpr endless] at spelled
    cases spelled
  · exact .inr ⟨singleText_eq_endless_iff.mp spelled, spelled⟩

theorem fieldText_cases (contains : outline.Contains descriptor) :
    ((¬IsEndless (aliasTable outline) descriptor ∧ ¬HoldsEndless (aliasTable outline) descriptor) ∧
      ∃ type, fieldText (aliasTable outline) descriptor = .ok type) ∨
    ((IsEndless (aliasTable outline) descriptor ∨ HoldsEndless (aliasTable outline) descriptor) ∧
      fieldText (aliasTable outline) descriptor = .error .endless) := by
  have endless_iff := fieldText_eq_endless_iff lowered contains
  rcases fieldText_spells lowered contains with ⟨type, spelled, _⟩ | ⟨spelled, _⟩
  · refine .inl ⟨not_or.mp fun endless => ?_, type, spelled⟩
    rw [endless_iff.mpr endless] at spelled
    cases spelled
  · exact .inr ⟨endless_iff.mp spelled, spelled⟩

theorem exists_fieldTextOf (allEnd : AllEnd outline) (type : Option Descriptor)
    (contains : ∀ descriptor, type = some descriptor → outline.Contains descriptor) :
    ∃ text, fieldTextOf (aliasTable outline) type = .ok text := by
  cases type with
  | none => exact ⟨_, rfl⟩
  | some descriptor =>
      rcases fieldText_cases lowered (contains descriptor rfl) with
        ⟨_, found⟩ | ⟨endless | holds, _⟩
      · exact found
      · exact absurd endless (allEnd.not_isEndless descriptor)
      · exact absurd holds (allEnd.not_holdsEndless descriptor)

theorem exists_singleText (allEnd : AllEnd outline) (contains : outline.Contains descriptor) :
    ∃ text, singleText (aliasTable outline) descriptor = .ok text := by
  rcases singleText_cases lowered contains with ⟨_, found⟩ | ⟨endless, _⟩
  · exact found
  · exact absurd endless (allEnd.not_isEndless descriptor)

theorem succeeds_aliasesText (allEnd : AllEnd outline) :
    (aliasesText (aliasTable outline) outline.aliases).Succeeds := by
  refine (Rendering.succeeds_mapM fun declared listed => ?_).bind fun _ =>
    Rendering.succeeds_pure _
  have spelled : Rendering.Succeeds (fieldTextOf (aliasTable outline) declared.target) :=
    exists_fieldTextOf lowered allEnd _ fun _ typed => (HasType.target listed typed).contains
  exact spelled.bind fun _ => Rendering.succeeds_pure _

theorem exists_fieldLines (allEnd : AllEnd outline) {declared : Outline.Class}
    (listed : declared ∈ outline.classes) {field : Field} (owned : field ∈ declared.fields)
    (number : Nat) : ∃ lines, fieldLines (aliasTable outline) field number = .ok lines := by
  obtain ⟨type, spelled⟩ := exists_fieldTextOf lowered allEnd field.type fun _ typed =>
    (HasType.field listed owned typed).contains
  rw [fieldLines, labelledType, spelled]
  exact ⟨_, rfl⟩

theorem succeeds_messageText (allEnd : AllEnd outline) {declared : Outline.Class}
    (listed : declared ∈ outline.classes) :
    (messageText (aliasTable outline) declared).Succeeds := by
  refine (Rendering.succeeds_mapM ?_).bind fun _ => Rendering.succeeds_pure _
  rintro ⟨field, index⟩ among
  exact exists_fieldLines lowered allEnd listed (List.fst_mem_of_mem_zipIdx among) _

theorem succeeds_unionText (allEnd : AllEnd outline) {key name : String} {variants : List Variant}
    (listed : (key, .union name variants) ∈ outline.composites) :
    (unionText (aliasTable outline) name variants).Succeeds := by
  refine (Rendering.succeeds_mapM ?_).bind fun _ => Rendering.succeeds_pure _
  rintro ⟨variant, index⟩ among
  have inside : variant.type ∈ (Composite.union name variants).descriptors :=
    List.mem_map_of_mem (List.fst_mem_of_mem_zipIdx among)
  have spelled : Rendering.Succeeds (singleText (aliasTable outline) variant.type) :=
    exists_singleText lowered allEnd (HasType.composite listed inside).contains
  exact spelled.bind fun _ => Rendering.succeeds_pure _

theorem exists_wrapperLines (allEnd : AllEnd outline) {key name field : String}
    {wrapped : Descriptor} (listed : (key, .wrapper name field wrapped) ∈ outline.composites) :
    ∃ lines, wrapperLines (aliasTable outline) name field wrapped = .ok lines := by
  have inside : wrapped ∈ (Composite.wrapper name field wrapped).descriptors :=
    List.mem_singleton_self wrapped
  obtain ⟨type, spelled⟩ := exists_fieldTextOf lowered allEnd (some wrapped) fun _ same =>
    Option.some.inj same ▸ (HasType.composite listed inside).contains
  rw [fieldTextOf] at spelled
  rw [wrapperLines, spelled]
  exact ⟨_, rfl⟩

theorem succeeds_unionsTexts (allEnd : AllEnd outline) :
    (unionsTexts (aliasTable outline) outline.composites).Succeeds := by
  refine Rendering.succeeds_mapM ?_
  rintro ⟨name, variants⟩ among
  obtain ⟨⟨key, composite⟩, listed, found⟩ := List.mem_filterMap.mp among
  cases composite with
  | union name' variants' =>
      cases found
      exact succeeds_unionText lowered allEnd listed
  | wrapper => cases found

theorem succeeds_wrappersTexts (allEnd : AllEnd outline) :
    (wrappersTexts (aliasTable outline) outline.composites).Succeeds := by
  refine (Rendering.succeeds_mapM ?_).bind fun wrappers => ?_
  · rintro ⟨name, field, wrapped⟩ among
    obtain ⟨⟨key, composite⟩, listed, found⟩ := List.mem_filterMap.mp among
    cases composite with
    | union => cases found
    | wrapper name' field' wrapped' =>
        cases found
        exact exists_wrapperLines lowered allEnd listed
  · split
    · exact Rendering.succeeds_pure _
    · exact Rendering.succeeds_pure _

theorem succeeds_listedAliases (allEnd : AllEnd outline) : (listedAliases outline).Succeeds := by
  rw [listedAliases]
  split
  · exact Rendering.succeeds_pure _
  · rw [← bind_pure_comp]
    exact (succeeds_aliasesText lowered allEnd).bind fun _ => Rendering.succeeds_pure _

theorem succeeds_declarations (allEnd : AllEnd outline) : (declarations outline).Succeeds := by
  rw [declarations_eq]
  refine (succeeds_listedAliases lowered allEnd).bind fun _ => ?_
  refine (Rendering.succeeds_mapM fun _ => succeeds_messageText lowered allEnd).bind fun _ => ?_
  refine (succeeds_unionsTexts lowered allEnd).bind fun _ => ?_
  exact (succeeds_wrappersTexts lowered allEnd).bind fun _ => Rendering.succeeds_pure _

theorem result_aliasesText_of_isEndless {name : String}
    (endless : IsEndless (aliasTable outline) (.ofName .named name)) :
    (aliasesText (aliasTable outline) outline.aliases).result = .error .endless := by
  refine Rendering.result_bind_eq_error (Rendering.result_mapM_eq_error ?_ ?_) _
  · intro declared listed
    cases typed : declared.target with
    | none => exact .inl (Rendering.succeeds_pure _)
    | some target =>
        rcases fieldText_cases lowered (HasType.target listed typed).contains with
          ⟨_, spelled⟩ | ⟨_, fails⟩
        · have spelled : Rendering.Succeeds (fieldText (aliasTable outline) target) := spelled
          exact .inl (spelled.bind fun _ => Rendering.succeeds_pure _)
        · exact .inr (Rendering.result_bind_eq_error fails _)
  · obtain ⟨declared, listed, target, typed, endless⟩ := exists_target_of_isEndless endless
    refine ⟨declared, listed, Rendering.result_bind_eq_error ?_ _⟩
    rw [typed]
    exact endless.text_eq .field

theorem result_declarations_of_not_allEnd (fails : ¬AllEnd outline) :
    (declarations outline).result = .error .endless := by
  rw [AllEnd] at fails
  push Not at fails
  obtain ⟨declared, listed, endless⟩ := fails
  rw [declarations_eq]
  refine Rendering.result_bind_eq_error ?_ _
  rw [listedAliases, if_neg (by simpa using List.ne_nil_of_mem listed), ← bind_pure_comp]
  exact Rendering.result_bind_eq_error (result_aliasesText_of_isEndless lowered endless) _

theorem result_fileText_cases (config : Config) (comment : List String) :
    (AllEnd outline ∧
      ∃ text, (fileText config { outline with comment }).result = .ok text) ∨
    (¬AllEnd outline ∧ (fileText config { outline with comment }).result = .error .endless) := by
  by_cases allEnd : AllEnd outline
  · exact .inl ⟨allEnd, (succeeds_declarations lowered allEnd).bind fun _ =>
      Rendering.succeeds_pure _⟩
  · exact .inr ⟨allEnd,
      Rendering.result_bind_eq_error (result_declarations_of_not_allEnd lowered allEnd) _⟩

end Lowered

/-- Every type of an outline is spelled unless an optional type on its way leads back to itself, for
the type of a field also on the ways of its arguments; cycles through aliases, lists and
dictionaries alone do no harm.  The file is rendered exactly if no alias is such a type, and it
fails in no other way. -/
theorem renders_unless_endless (overrides : Dictionary String Category) (model : Model)
    (includesProposed includesMethods : Bool) (selection : Option (List String))
    (events : List Event) (config : Config) (comment : List String) :
    let analyzer : Analyzer :=
      .ofModel model (profile.withOverrides overrides) includesProposed selection
    let outline := (analyzer.analyze includesMethods ⟨[], events⟩).1
    let aliases := aliasTable outline
    (∀ descriptor, outline.Contains descriptor →
      ((∃ type, singleText aliases descriptor = .ok type) ↔ ¬IsEndless aliases descriptor) ∧
      ((∃ type, fieldText aliases descriptor = .ok type) ↔
        ¬IsEndless aliases descriptor ∧ ¬HoldsEndless aliases descriptor)) ∧
    ((∃ text, (fileText config { outline with comment }).result = .ok text) ↔
      ∀ declared ∈ outline.aliases, ¬IsEndless aliases (.ofName .named declared.name)) ∧
    ∀ error, (fileText config { outline with comment }).result = .error error →
      error = .endless := by
  intro analyzer outline aliases
  have lowered := isLoweredBy_analyze overrides model includesProposed includesMethods selection
    events
  refine ⟨fun descriptor contains => ⟨?_, ?_⟩, ?_⟩
  · rcases singleText_cases lowered contains with ⟨ends, found⟩ | ⟨endless, fails⟩
    · exact iff_of_true found ends
    · exact iff_of_false (not_exists_ok_of_error fails) (not_not_intro endless)
  · rcases fieldText_cases lowered contains with ⟨ends, found⟩ | ⟨endless, fails⟩
    · exact iff_of_true found ends
    · exact iff_of_false (not_exists_ok_of_error fails) fun ends => endless.elim ends.1 ends.2
  · rcases result_fileText_cases lowered config comment with ⟨allEnd, found⟩ | ⟨goesOn, fails⟩
    · refine ⟨iff_of_true found allEnd, fun error failure => ?_⟩
      exact absurd found (not_exists_ok_of_error failure)
    · refine ⟨iff_of_false (not_exists_ok_of_error fails) goesOn, fun error failure => ?_⟩
      exact Except.error.inj (failure.symm.trans fails)

/-- An alias of itself or nothing is endless, and there is no file. -/
theorem fileText_endless_of_optional_cycle :
    let never : TypeAlias :=
      { (default : TypeAlias) with
        name := "Never"
        type := some (.union (.root "type")
          [.reference (.root "first") "Never", .base (.root "second") "null"]) }
    let model : Model := { (default : Model) with aliases := [never] }
    let analyzer : Analyzer := .ofModel model (profile.withOverrides []) false none
    let outline := (analyzer.analyze true ⟨[], []⟩).1
    outline.aliases.map (·.target) = [some (.optional (.ofName .named "Never"))] ∧
      (fileText default outline).result = .error .endless := by
  intro never model analyzer outline
  exact ⟨by cbv, by cbv⟩

end ProtocolCodegen.Proto
