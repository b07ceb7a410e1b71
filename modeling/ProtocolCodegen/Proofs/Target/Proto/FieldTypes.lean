import Mathlib
import ProtocolCodegen.Proofs.Outline.BuiltTypes
import ProtocolCodegen.Proofs.Target.Proto.Aliases
import ProtocolCodegen.Target.Proto.File

/-!
# Proto: types of fields

Proto allows a list or a dictionary only as the whole type of a field, and only some scalars as
keys.  Whatever lowering builds, and whatever its aliases stand for, is spelled within these limits.
-/

namespace ProtocolCodegen.Proto

open Outline

/-! ## Legal types -/

/-- A type that is neither a list nor a dictionary: a base type, a declared type that is not an
alias, or a composite of the outline. -/
inductive IsSingleType (outline : Outline) : String → Prop where
  | base (category : Category) : IsSingleType outline (profile.baseTypes.spell category)
  | declared {name : String} (stands : outline.Contains (.ofName .named name))
      (unaliased : ∀ declared ∈ outline.aliases, declared.name ≠ name) : IsSingleType outline name
  | composite {entry : String × Composite} (listed : entry ∈ outline.composites) :
      IsSingleType outline entry.1

/-- The scalars that lowering leaves as keys. -/
def keyTypes : List String :=
  ["string", "int32", "uint32", "bool"]

/-- A list or a dictionary of single types. -/
inductive IsCollectionType (outline : Outline) : String → Prop where
  | list {element : String} (single : IsSingleType outline element) :
      IsCollectionType outline ("repeated " ++ element)
  | dictionary {key value : String} (listed : key ∈ keyTypes)
      (single : IsSingleType outline value) :
      IsCollectionType outline ("map<" ++ key ++ ", " ++ value ++ ">")

theorem IsCollectionType.isCollection {outline : Outline} {type : String}
    (collection : IsCollectionType outline type) : isCollection type = true := by
  cases collection <;> simp [Proto.isCollection, String.toList_append]

/-- A type of a field with its label, which only a single type can have. -/
inductive IsFieldType (outline : Outline) : String → Prop where
  | single {type : String} (single : IsSingleType outline type) : IsFieldType outline type
  | labelled {type : String} (single : IsSingleType outline type) :
      IsFieldType outline ("optional " ++ type)
  | collection {type : String} (collection : IsCollectionType outline type) :
      IsFieldType outline type

/-- What a spelling comes to: a legal type, or no end, which is ruled out under a condition. -/
def SpellsUnder (condition : Prop) (legal : String → Prop)
    (spelled : Except RenderError String) : Prop :=
  (∃ type, spelled = .ok type ∧ legal type) ∨ (spelled = .error .endless ∧ ¬condition)

theorem SpellsUnder.mono {condition condition' : Prop} {legal legal' : String → Prop}
    {spelled : Except RenderError String} (spells : SpellsUnder condition legal spelled)
    (stronger : condition' → condition) (weaker : ∀ type, legal type → legal' type) :
    SpellsUnder condition' legal' spelled := by
  rcases spells with ⟨type, spelled, isLegal⟩ | ⟨endless, failed⟩
  · exact .inl ⟨type, spelled, weaker type isLegal⟩
  · exact .inr ⟨endless, fun holds => failed (stronger holds)⟩

theorem SpellsUnder.bind {condition : Prop} {legal legal' : String → Prop}
    {spelled : Except RenderError String} (spells : SpellsUnder condition legal spelled)
    {next : String → Except RenderError String}
    (spellsNext : ∀ type, legal type → SpellsUnder condition legal' (next type)) :
    SpellsUnder condition legal' (spelled >>= next) := by
  rcases spells with ⟨type, rfl, isLegal⟩ | ⟨rfl, failed⟩
  · exact spellsNext type isLegal
  · exact .inr ⟨rfl, failed⟩

theorem SpellsUnder.pure {condition : Prop} {legal : String → Prop} {type : String}
    (isLegal : legal type) : SpellsUnder condition legal (.ok type) :=
  .inl ⟨type, rfl, isLegal⟩

/-! ## Spelling what was lowered -/

/-- An outline whose types a lowerer for proto built. -/
structure IsLoweredBy (outline : Outline) (lowerer : Lowerer) : Prop where
  bases : lowerer.profile.baseTypes = profile.baseTypes
  keys : lowerer.profile.scalarMapKeys = true
  built : ∀ descriptor, outline.Contains descriptor → lowerer.Builds descriptor
  defined : ∀ descriptor name, outline.Contains descriptor → descriptor.RefersTo name →
    ∃ entry ∈ outline.composites, entry.1 = name
  named : ∀ entry ∈ outline.composites, entry.1 ≠ ""

section Spelling

variable {outline : Outline} {lowerer : Lowerer} (lowered : IsLoweredBy outline lowerer)

theorem exists_alias_of_get? {name : String} {target : Option Descriptor}
    (found : (aliasTable outline).get? name = some target) :
    ∃ declared ∈ outline.aliases, declared.name = name ∧ declared.target = target := by
  obtain ⟨declared, listed, equal⟩ := List.mem_map.mp (Dictionary.mem_of_get?_ofList found)
  exact ⟨declared, listed, Prod.mk.inj equal⟩

theorem contains_of_follows {descriptor next : Descriptor}
    (follows : Follows (aliasTable outline) descriptor next) : outline.Contains next := by
  obtain ⟨declared, listed, _, target⟩ := exists_alias_of_get? (kind_of_follows follows).2
  exact (HasType.target listed target).contains

theorem contains_of_resolve {descriptor resolved : Descriptor}
    (contains : outline.Contains descriptor)
    (found : resolve (aliasTable outline) descriptor = some resolved) :
    outline.Contains resolved := by
  obtain ⟨follows, _⟩ := follows_of_resolve found
  induction follows with
  | refl => exact contains
  | tail _ step _ => exact contains_of_follows step

theorem name_ne_of_unaliased {name : String}
    (unaliased : aliasOf? (aliasTable outline) (.ofName .named name) = none) :
    ∀ declared ∈ outline.aliases, declared.name ≠ name := by
  rintro declared listed rfl
  refine Dictionary.not_mem_of_get?_ofList unaliased (List.mem_map.mpr ?_)
  exact ⟨_, List.mem_map_of_mem listed, rfl⟩

theorem plainText_named {name : String} (contains : outline.Contains (.ofName .named name))
    (unaliased : aliasOf? (aliasTable outline) (.ofName .named name) = none) :
    IsSingleType outline (plainText (.ofName .named name)) := by
  by_cases empty : name = ""
  · have text : plainText (.ofName .named name) = profile.baseTypes.spell .any := if_pos empty
    rw [text]
    exact .base .any
  · have text : plainText (.ofName .named name) = name := if_neg empty
    rw [text]
    exact .declared contains (name_ne_of_unaliased unaliased)

include lowered

theorem plainText_scalar (category : Category) :
    plainText (lowerer.scalar category) = profile.baseTypes.spell category := by
  rw [Lowerer.scalar, lowered.bases]
  cases category <;> rfl

theorem plainText_constant (value : String) :
    plainText { lowerer.scalar .string with constant := some value } =
      profile.baseTypes.spell .string :=
  plainText_scalar lowered .string

theorem plainText_composite {kind : TypeKind} (defines : kind = .union ∨ kind = .wrapper)
    {name : String} (contains : outline.Contains (.ofName kind name)) :
    IsSingleType outline (plainText (.ofName kind name)) := by
  obtain ⟨entry, listed, rfl⟩ := lowered.defined _ name contains ⟨defines, rfl⟩
  have text : plainText (.ofName kind entry.1) = entry.1 := if_neg (lowered.named entry listed)
  rw [text]
  exact .composite listed

theorem isSingleType_plainText {descriptor : Descriptor} (contains : outline.Contains descriptor)
    (unaliased : aliasOf? (aliasTable outline) descriptor = none)
    (plain : descriptor.kind ≠ .array ∧ descriptor.kind ≠ .map ∧ descriptor.kind ≠ .optional) :
    IsSingleType outline (plainText descriptor) := by
  cases lowered.built descriptor contains with
  | scalar category =>
      rw [plainText_scalar lowered]
      exact .base category
  | constant value =>
      rw [plainText_constant lowered]
      exact .base .string
  | anything =>
      have text : plainText lowerer.anything = profile.baseTypes.spell .any := by
        rw [Lowerer.anything, lowered.bases]
        rfl
      rw [text]
      exact .base .any
  | named name => exact plainText_named contains unaliased
  | union name => exact plainText_composite lowered (.inl rfl) contains
  | wrapper name => exact plainText_composite lowered (.inr rfl) contains
  | array built => exact absurd rfl plain.1
  | map builtKey builtValue => exact absurd rfl plain.2.1
  | optional built => exact absurd rfl plain.2.2

theorem mapKey_mem_keyTypes {key : Descriptor} (built : lowerer.Builds key) :
    (lowerer.mapKey key).kind = .scalar ∧ plainText (lowerer.mapKey key) ∈ keyTypes := by
  by_cases isKey : Lowerer.isKey key = true
  · have kept : lowerer.mapKey key = key := by simp [Lowerer.mapKey, isKey]
    rw [kept]
    cases built with
    | scalar category =>
        rw [plainText_scalar lowered]
        cases category with
        | string | integer | uinteger | boolean => exact ⟨rfl, by decide⟩
        | _ => cases isKey
    | constant value =>
        rw [plainText_constant lowered]
        exact ⟨rfl, by decide⟩
    | _ => cases isKey
  · have replaced : lowerer.mapKey key = lowerer.scalar .string := by
      simp [Lowerer.mapKey, isKey, lowered.keys]
    rw [replaced, plainText_scalar lowered]
    exact ⟨rfl, by decide⟩

theorem singleTextWithin_spells (steps : Nat) {descriptor : Descriptor}
    (contains : outline.Contains descriptor) :
    SpellsUnder (IsEnough (aliasTable outline) 0 steps descriptor) (IsSingleType outline)
      (singleTextWithin (aliasTable outline) steps descriptor) := by
  induction steps generalizing descriptor with
  | zero => exact .inr ⟨rfl, not_isEnough_zero⟩
  | succ steps induction =>
      rw [singleTextWithin]
      cases found : resolve (aliasTable outline) descriptor with
      | none => exact .pure (.base .any)
      | some resolved =>
          have containsResolved := contains_of_resolve contains found
          have unaliased := (follows_of_resolve found).2
          have plain := isSingleType_plainText lowered containsResolved unaliased
          cases lowered.built resolved containsResolved with
          | array built => exact .pure (.base .array)
          | map builtKey builtValue => exact .pure (.base .object)
          | optional built =>
              refine (induction (containsResolved.argument List.mem_cons_self)).mono ?_ ?_
              · exact fun enough => (enough.resolved found).present
              · exact fun _ => id
          | _ => exact .pure (plain ⟨nofun, nofun, nofun⟩)

theorem fieldTextWithin_mapKey (steps : Nat) {key : Descriptor} (built : lowerer.Builds key) :
    SpellsUnder (0 < steps) (· ∈ keyTypes)
      (fieldTextWithin (aliasTable outline) steps (lowerer.mapKey key)) := by
  obtain ⟨scalar, listed⟩ := mapKey_mem_keyTypes lowered built
  cases steps with
  | zero => exact .inr ⟨rfl, Nat.lt_irrefl 0⟩
  | succ steps =>
      have unaliased : aliasOf? (aliasTable outline) (lowerer.mapKey key) = none :=
        aliasOf?_of_kind (by simp [scalar])
      have spelled : fieldTextWithin (aliasTable outline) (steps + 1) (lowerer.mapKey key) =
          .ok (plainText (lowerer.mapKey key)) := by
        simp only [fieldTextWithin, resolve_of_unaliased unaliased, scalar]
      rw [spelled]
      exact .pure listed

/-- The condition under which a number of steps is enough for a field. -/
abbrev IsEnoughForField (outline : Outline) (steps : Nat) (descriptor : Descriptor) : Prop :=
  IsEnough (aliasTable outline) (sizeAhead (aliasTable outline) []) steps descriptor

theorem list_spells (steps : Nat) {element : Descriptor}
    (contains : outline.Contains (.array element)) :
    SpellsUnder (IsEnoughForField outline (steps + 1) (.array element)) (IsCollectionType outline)
      (return "repeated " ++ (← singleTextWithin (aliasTable outline) steps element)) := by
  have single := singleTextWithin_spells lowered steps (contains.argument List.mem_cons_self)
  refine (single.mono (fun enough => enough.argument List.mem_cons_self) fun _ => id).bind ?_
  exact fun type isSingle => .pure (.list isSingle)

theorem dictionary_spells (steps : Nat) {key value : Descriptor}
    (contains : outline.Contains (.map (lowerer.mapKey key) value)) (built : lowerer.Builds key) :
    SpellsUnder (IsEnoughForField outline (steps + 1) (.map (lowerer.mapKey key) value))
      (IsCollectionType outline) (do
        let key ← fieldTextWithin (aliasTable outline) steps (lowerer.mapKey key)
        let value ← singleTextWithin (aliasTable outline) steps value
        return "map<" ++ key ++ ", " ++ value ++ ">") := by
  have listed : value ∈ (Descriptor.map (lowerer.mapKey key) value).arguments :=
    List.mem_cons_of_mem _ List.mem_cons_self
  have spellsKey := fieldTextWithin_mapKey lowered steps built
  have spellsValue := singleTextWithin_spells lowered steps (contains.argument listed)
  refine (spellsKey.mono (fun enough => ?_) fun _ => id).bind fun keyType isKey => ?_
  · exact Nat.pos_of_ne_zero fun none => not_isEnough_zero (none ▸ enough.argument listed)
  · refine (spellsValue.mono (fun enough => enough.argument listed) fun _ => id).bind ?_
    exact fun type isSingle => .pure (.dictionary isKey isSingle)

theorem fieldTextWithin_spells (steps : Nat) {descriptor : Descriptor}
    (contains : outline.Contains descriptor) :
    SpellsUnder (IsEnoughForField outline steps descriptor)
      (fun type => IsSingleType outline type ∨ IsCollectionType outline type)
      (fieldTextWithin (aliasTable outline) steps descriptor) := by
  induction steps generalizing descriptor with
  | zero => exact .inr ⟨rfl, not_isEnough_zero⟩
  | succ steps induction =>
      rw [fieldTextWithin]
      cases found : resolve (aliasTable outline) descriptor with
      | none => exact .pure (.inl (.base .any))
      | some resolved =>
          have containsResolved := contains_of_resolve contains found
          have unaliased := (follows_of_resolve found).2
          have plain := isSingleType_plainText lowered containsResolved unaliased
          cases lowered.built resolved containsResolved with
          | array built =>
              exact (list_spells lowered steps containsResolved).mono
                (fun enough => enough.resolved found) fun _ => .inr
          | map builtKey builtValue =>
              exact (dictionary_spells lowered steps containsResolved builtKey).mono
                (fun enough => enough.resolved found) fun _ => .inr
          | optional built =>
              exact (induction (containsResolved.argument List.mem_cons_self)).mono
                (fun enough => (enough.resolved found).present) fun _ => id
          | _ => exact .pure (.inl (plain ⟨nofun, nofun, nofun⟩))

theorem singleText_spells {descriptor : Descriptor} (contains : outline.Contains descriptor) :
    SpellsUnder (IsAcyclic (aliasTable outline)) (IsSingleType outline)
      (singleText (aliasTable outline) descriptor) :=
  (singleTextWithin_spells lowered _ contains).mono
    (fun acyclic => (isEnough_spellingBound acyclic descriptor).without) fun _ => id

theorem fieldText_spells {descriptor : Descriptor} (contains : outline.Contains descriptor) :
    SpellsUnder (IsAcyclic (aliasTable outline))
      (fun type => IsSingleType outline type ∨ IsCollectionType outline type)
      (fieldText (aliasTable outline) descriptor) :=
  (fieldTextWithin_spells lowered _ contains).mono
    (fun acyclic => isEnough_spellingBound acyclic descriptor) fun _ => id

theorem fieldText_spells_of_collection {descriptor : Descriptor}
    (contains : outline.Contains descriptor)
    (collection : descriptor.kind = .array ∨ descriptor.kind = .map) :
    SpellsUnder (IsAcyclic (aliasTable outline)) (IsCollectionType outline)
      (fieldText (aliasTable outline) descriptor) := by
  have unaliased : aliasOf? (aliasTable outline) descriptor = none :=
    aliasOf?_of_kind (by rcases collection with kind | kind <;> simp [kind])
  have enough (acyclic : IsAcyclic (aliasTable outline)) :=
    isEnough_spellingBound acyclic descriptor
  rw [fieldText]
  rw [spellingBound] at enough ⊢
  rw [fieldTextWithin, resolve_of_unaliased unaliased]
  cases lowered.built descriptor contains with
  | array built => exact (list_spells lowered _ contains).mono enough fun _ => id
  | map builtKey builtValue =>
      exact (dictionary_spells lowered _ contains builtKey).mono enough fun _ => id
  | _ => rcases collection with kind | kind <;> cases kind

theorem labelledType_spells {field : Field}
    (contains : ∀ type, field.type = some type → outline.Contains type) :
    SpellsUnder (IsAcyclic (aliasTable outline)) (IsFieldType outline)
      (labelledType (aliasTable outline) field) := by
  have spells : SpellsUnder (IsAcyclic (aliasTable outline))
      (fun type => IsSingleType outline type ∨ IsCollectionType outline type)
      (fieldTextOf (aliasTable outline) field.type) := by
    cases typed : field.type with
    | none => exact .pure (.inl (.base .any))
    | some type => exact fieldText_spells lowered (contains type typed)
  refine spells.bind fun type legal => ?_
  by_cases labelled : (isNullable field && !isCollection type) = true
  · rcases legal with single | collection
    · rw [if_pos labelled]
      exact .pure (.labelled single)
    · simp [collection.isCollection] at labelled
  · rw [if_neg labelled, String.empty_append]
    exact .pure (legal.elim .single .collection)

end Spelling

theorem isLoweredBy_analyze (overrides : Dictionary String Category) (model : Model)
    (includesProposed includesMethods : Bool) (selection : Option (List String))
    (events : List Event) :
    let analyzer : Analyzer :=
      .ofModel model (profile.withOverrides overrides) includesProposed selection
    IsLoweredBy (analyzer.analyze includesMethods ⟨[], events⟩).1 analyzer.lowerer where
  bases := rfl
  keys := rfl
  built _ contains := Analyzer.builds_of_contains contains
  defined _ _ contains refers :=
    List.mem_map.mp (Analyzer.mem_composites_of_refersTo contains refers)
  named entry listed := by
    obtain ⟨place, gives⟩ := Analyzer.gives_of_mem_composites listed
    obtain ⟨start, starts, rest, named⟩ := gives.exists_start
    have nonempty : ∀ start ∈ profile.naming.compositeStarts, start ≠ "" := by decide
    intro empty
    rw [named, String.append_eq_empty_iff] at empty
    exact nonempty start starts empty.1

/-- A spelling gives legal types only, and it gives one where aliases are acyclic. -/
def Prints (aliases : AliasTable) (legal : String → Prop)
    (spelled : Except RenderError String) : Prop :=
  (∀ type, spelled = .ok type → legal type) ∧ (IsAcyclic aliases → ∃ type, spelled = .ok type)

theorem SpellsUnder.prints {aliases : AliasTable} {legal : String → Prop}
    {spelled : Except RenderError String} (spells : SpellsUnder (IsAcyclic aliases) legal spelled) :
    Prints aliases legal spelled := by
  rcases spells with ⟨type, rfl, isLegal⟩ | ⟨rfl, cyclic⟩
  · exact ⟨fun other equal => Except.ok.inj equal ▸ isLegal, fun _ => ⟨type, rfl⟩⟩
  · exact ⟨fun type equal => (by cases equal), fun acyclic => absurd acyclic cyclic⟩

/-- The type of every field with its label, of every member of a union and of every record around a
collection is a legal one.  It is found unless an alias reaches itself through aliases and optional
types. -/
theorem prints_legal_types (overrides : Dictionary String Category) (model : Model)
    (includesProposed includesMethods : Bool) (selection : Option (List String))
    (events : List Event) :
    let analyzer : Analyzer :=
      .ofModel model (profile.withOverrides overrides) includesProposed selection
    let outline := (analyzer.analyze includesMethods ⟨[], events⟩).1
    let aliases := aliasTable outline
    (∀ declared ∈ outline.classes, ∀ field ∈ declared.fields,
      Prints aliases (IsFieldType outline) (labelledType aliases field)) ∧
    (∀ entry ∈ outline.composites, ∀ name variants, entry.2 = .union name variants →
      ∀ variant ∈ variants,
        Prints aliases (IsSingleType outline) (singleText aliases variant.type)) ∧
    ∀ entry ∈ outline.composites, ∀ name field wrapped, entry.2 = .wrapper name field wrapped →
      Prints aliases (IsCollectionType outline) (fieldText aliases wrapped) := by
  intro analyzer outline aliases
  have lowered := isLoweredBy_analyze overrides model includesProposed includesMethods selection
    events
  refine ⟨?_, ?_, ?_⟩
  · intro declared listed field owned
    refine (labelledType_spells lowered fun type typed => ?_).prints
    exact (HasType.field listed owned typed).contains
  · rintro ⟨key, _⟩ listed name variants rfl variant among
    have inside : variant.type ∈ (Composite.union name variants).descriptors :=
      List.mem_map_of_mem among
    exact (singleText_spells lowered (HasType.composite listed inside).contains).prints
  · rintro ⟨key, _⟩ listed name field wrapped rfl
    obtain ⟨place, gives⟩ := Analyzer.gives_of_mem_composites listed
    have inside : wrapped ∈ (Composite.wrapper name field wrapped).descriptors :=
      List.mem_singleton_self wrapped
    exact (fieldText_spells_of_collection lowered (HasType.composite listed inside).contains
      (Lowerer.kind_of_gives_wrapper gives)).prints

/-- A list behind an alias is a list as the type of a field, and a single type within another
list. -/
theorem prints_legal_types_behind_alias :
    let names : TypeAlias :=
      { (default : TypeAlias) with
        name := "Names"
        type := some (.array (.root "type") (.base (.root "element") "string")) }
    let property (name : String) (type : Node) : Property Node :=
      { (default : Property Node) with name, type }
    let record : Structure :=
      { (default : Structure) with
        name := "Record"
        properties := [
          property "names" (.reference (.root "names") "Names"),
          property "lists" (.array (.root "lists") (.reference (.root "names") "Names"))] }
    let model : Model := { (default : Model) with structures := [record], aliases := [names] }
    let analyzer : Analyzer := .ofModel model (profile.withOverrides []) false none
    let outline := (analyzer.analyze true ⟨[], []⟩).1
    IsAcyclic (aliasTable outline) ∧
      (∀ declared ∈ outline.classes, ∀ field ∈ declared.fields,
        ∃ type, labelledType (aliasTable outline) field = .ok type ∧ IsFieldType outline type) ∧
      outline.classes.flatMap (·.fields.map (labelledType (aliasTable outline))) =
        [.ok "repeated string", .ok "repeated google.protobuf.ListValue"] := by
  intro names property record model analyzer outline
  have table : aliasTable outline = [("Names", some (.array (.scalar .string "string")))] := by cbv
  have acyclic : IsAcyclic (aliasTable outline) := by
    refine isAcyclic_of_targets fun name target found => ?_
    have listed := Dictionary.mem_of_get? found
    rw [table, List.mem_singleton, Prod.mk.injEq, Option.some.injEq] at listed
    rw [listed.2]
    decide
  have printed := (prints_legal_types [] model false true none []).1
  refine ⟨acyclic, fun declared listed field owned => ?_, by cbv⟩
  obtain ⟨legal, found⟩ := printed declared listed field owned
  obtain ⟨type, equal⟩ := found acyclic
  exact ⟨type, equal, legal type equal⟩

end ProtocolCodegen.Proto
