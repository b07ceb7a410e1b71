import Mathlib
import ProtocolCodegen.Generation
import ProtocolCodegen.Proofs.Lowering.Override
import ProtocolCodegen.Proofs.Outline.Retyping
import ProtocolCodegen.Proofs.Schema.Reordering

/-!
# Type overrides

A configuration can take a declared name for a base type.  The outline that is generated then is the
one without the override, in which the base type stands wherever the declared type stood.
-/

namespace ProtocolCodegen

namespace Dictionary

variable {α : Type} {key : String} {value : α} {dictionary : Dictionary String α}

theorem ne_of_get?_eq_none (fresh : dictionary.get? key = none) {entry : String × α}
    (listed : entry ∈ dictionary) : entry.1 ≠ key := by
  rintro rfl
  have known : dictionary.hasKey entry.1 = true :=
    hasKey_iff_mem_keys.mpr (List.mem_map_of_mem listed)
  simp [hasKey, fresh] at known

theorem put_of_get?_eq_none (fresh : dictionary.get? key = none) :
    dictionary.put key value = dictionary ++ [(key, value)] := by
  induction dictionary with
  | nil => rfl
  | cons entry rest induction =>
      obtain ⟨other, old⟩ := entry
      rw [get?] at fresh
      split at fresh
      · cases fresh
      · rename_i different
        rw [put, if_neg different, induction fresh, List.cons_append]

/-- A new key is inserted at one place among the sorted ones. -/
theorem exists_sortedBy_put (value : α) (fresh : dictionary.get? key = none) :
    ∃ front behind, Text.sortedBy (·.1) (dictionary.put key value) =
        front ++ (key, value) :: behind ∧
      Text.sortedBy (·.1) dictionary = front ++ behind := by
  have others (entry : String × α) (listed : entry ∈ dictionary) : (entry.1 != key) = true := by
    simpa using ne_of_get?_eq_none fresh listed
  have sorted := Text.sortedBy_perm (·.1) (dictionary ++ [(key, value)])
  rw [put_of_get?_eq_none fresh]
  have listed : (key, value) ∈ Text.sortedBy (·.1) (dictionary ++ [(key, value)]) :=
    sorted.mem_iff.mpr (by simp)
  obtain ⟨front, behind, split⟩ := List.append_of_mem listed
  refine ⟨front, behind, split, ?_⟩
  have rest : (front ++ behind).Perm dictionary := by
    have moved := List.perm_middle.symm.trans (split ▸ sorted)
    exact (moved.trans (List.perm_append_singleton _ _)).cons_inv
  have filtered := Text.filter_sortedBy (·.1) (fun entry : String × α => entry.1 != key)
    (dictionary ++ [(key, value)])
  have front_others : front.filter (fun entry => entry.1 != key) = front :=
    List.filter_eq_self.mpr fun entry listed =>
      others entry (rest.subset (List.mem_append_left _ listed))
  have behind_others : behind.filter (fun entry => entry.1 != key) = behind :=
    List.filter_eq_self.mpr fun entry listed =>
      others entry (rest.subset (List.mem_append_right _ listed))
  simpa [split, front_others, behind_others, List.filter_eq_self.mpr others] using filtered.symm

/-- Of pairs that are put, one of a new key changes the value of that key alone. -/
theorem get?_putAll_insert {front behind : List (String × α)}
    (others : ∀ entry ∈ front ++ behind, entry.1 ≠ key) (other : String) :
    (dictionary.putAll (front ++ (key, value) :: behind)).get? other =
      if other = key then some value else (dictionary.putAll (front ++ behind)).get? other := by
  rw [get?_putAll, get?_putAll]
  split
  · rename_i same
    subst same
    have after : behind.reverse.find? (·.1 == other) = none := by
      rw [List.find?_eq_none]
      intro entry listed
      simpa using others entry (List.mem_append_right _ (List.mem_reverse.mp listed))
    simp [after]
  · rename_i different
    simp [List.find?_append, Ne.symm different]

end Dictionary

/-! ## The categories of overrides -/

namespace Config

/-- The category of one override. -/
def overrideCategory (entry : String × String) : Except OverrideError (String × Category) :=
  match Category.ofBaseType? entry.2 with
  | some category => .ok (entry.1, category)
  | none => .error ⟨entry.1, entry.2⟩

theorem overrideCategories_eq (config : Config) :
    config.overrideCategories =
      (Text.sortedBy (·.1) config.typeOverrides).mapM overrideCategory := rfl

theorem fst_of_overrideCategory {entry : String × String} {known : String × Category}
    (read : overrideCategory entry = .ok known) : known.1 = entry.1 := by
  rw [overrideCategory] at read
  split at read
  · exact Except.ok.inj read ▸ rfl
  · cases read

theorem keys_of_mapM_overrideCategory {entries : List (String × String)}
    {categories : Dictionary String Category}
    (read : entries.mapM overrideCategory = .ok categories) :
    categories.map (·.1) = entries.map (·.1) := by
  induction entries generalizing categories with
  | nil => exact Except.ok.inj read ▸ rfl
  | cons entry rest induction =>
      rw [List.mapM_cons] at read
      cases first : overrideCategory entry with
      | error error => simp [first, bind, Except.bind] at read
      | ok known =>
          cases others : rest.mapM overrideCategory with
          | error error => simp [first, others, bind, Except.bind] at read
          | ok found =>
              obtain rfl : known :: found = categories := by
                simpa [first, others, bind, Except.bind, pure, Except.pure] using read
              rw [List.map_cons, List.map_cons, fst_of_overrideCategory first, induction others]

/-- A configuration with a further type override. -/
def withOverride (config : Config) (name base : String) : Config :=
  { config with typeOverrides := config.typeOverrides.put name base }

/-- A further override that names a base type is read at its place among the others, and what is
refused without it is refused with it. -/
theorem overrideCategories_withOverride {config : Config} {name base : String} {category : Category}
    (valid : Category.ofBaseType? base = some category)
    (fresh : config.typeOverrides.get? name = none) :
    (∃ error, config.overrideCategories = .error error ∧
      (config.withOverride name base).overrideCategories = .error error) ∨
    ∃ front behind, config.overrideCategories = .ok (front ++ behind) ∧
      (config.withOverride name base).overrideCategories =
        .ok (front ++ (name, category) :: behind) ∧
      ∀ entry ∈ front ++ behind, entry.1 ≠ name := by
  obtain ⟨front, behind, inserted, sorted⟩ := Dictionary.exists_sortedBy_put base fresh
  have read : overrideCategory (name, base) = .ok (name, category) := by
    rw [overrideCategory, valid]
  simp only [overrideCategories_eq, withOverride, inserted, sorted, List.mapM_append,
    List.mapM_cons, read]
  cases before : front.mapM overrideCategory with
  | error error => exact .inl ⟨error, rfl, rfl⟩
  | ok categories =>
      cases after : behind.mapM overrideCategory with
      | error error => exact .inl ⟨error, rfl, rfl⟩
      | ok categories' =>
          refine .inr ⟨categories, categories', rfl, rfl, fun entry listed => ?_⟩
          have keys : (categories ++ categories').map (·.1) =
              (Text.sortedBy (·.1) config.typeOverrides).map (·.1) := by
            rw [sorted, List.map_append, List.map_append, keys_of_mapM_overrideCategory before,
              keys_of_mapM_overrideCategory after]
          have known : entry.1 ∈ (Text.sortedBy (·.1) config.typeOverrides).map (·.1) :=
            keys ▸ List.mem_map_of_mem listed
          obtain ⟨origin, among, same⟩ := List.mem_map.mp known
          rw [← same]
          exact Dictionary.ne_of_get?_eq_none fresh ((Text.sortedBy_perm _ _).mem_iff.mp among)

end Config

/-! ## Outlines with one more override -/

theorem Lowerer.overriding_ofModel (model : Model) {profile : Profile} {name : String}
    {front behind : List (String × Category)}
    (anyKeys : profile.scalarMapKeys = false) (free : profile.overrides.get? name = none)
    (others : ∀ entry ∈ front ++ behind, entry.1 ≠ name) (category : Category)
    (includesProposed : Bool) :
    (Lowerer.ofModel model (profile.withOverrides (front ++ behind)) includesProposed).Overriding
      name category
      (.ofModel model (profile.withOverrides (front ++ (name, category) :: behind))
        includesProposed) where
  shares := ⟨rfl, rfl, rfl, rfl, rfl, fun _ => rfl⟩
  anyKeys := anyKeys
  anyKeys' := anyKeys
  free := by
    have without : (front ++ behind).reverse.find? (·.1 == name) = none := by
      rw [List.find?_eq_none]
      intro entry listed
      simpa using others entry (List.mem_reverse.mp listed)
    exact (Dictionary.get?_putAll _ _ _).trans (by rw [without]; exact free)
  overrides := Dictionary.get?_putAll_insert others

theorem Analyzer.retypes_ofModel {model : Model} {profile : Profile} {name : String}
    {front behind : List (String × Category)}
    (anyKeys : profile.scalarMapKeys = false) (free : profile.overrides.get? name = none)
    (others : ∀ entry ∈ front ++ behind, entry.1 ≠ name)
    (apart : profile.naming.TellsApart name model.referencedNames) (category : Category)
    (includesProposed : Bool) (selection : Option (List String)) :
    Retypes (.replaceNamed (profile.naming.typeName name)
        (.scalar category (profile.baseTypes.spell category)))
      (.ofModel model (profile.withOverrides (front ++ behind)) includesProposed selection)
      (.ofModel model (profile.withOverrides (front ++ (name, category) :: behind))
        includesProposed selection) where
  model := rfl
  selection := rfl
  lowerer :=
    (Lowerer.overriding_ofModel model anyKeys free others category includesProposed).retypes apart

/-- Analyzes a protocol for a language with the overrides of a configuration, unless one of them
names no base type. -/
def Config.analyze (config : Config) (language : Language) (model : Model)
    (selection : Option (List String)) (includesMethods : Bool) (ledger : Ledger) :
    Except OverrideError (Outline × Ledger) :=
  (config.profile language.profile).map fun profile =>
    (Analyzer.ofModel model profile config.includeProposed selection).analyze includesMethods ledger

/-- A further override changes nothing in the outlines for Go and Kotlin but the types that were the
declared type of the overridden name.  All of these become the base type, at every depth and in
every composite.  The events stay the same, and so does the refusal of an invalid override. -/
theorem Config.analyze_withOverride (config : Config) (language : Language) (model : Model)
    (selection : Option (List String)) (includesMethods : Bool) (events : List Event)
    {name base : String} {category : Category} (other : language ≠ .proto)
    (valid : Category.ofBaseType? base = some category)
    (free : language.profile.overrides.get? name = none)
    (fresh : config.typeOverrides.get? name = none)
    (apart : language.profile.naming.TellsApart name model.referencedNames) :
    let change := Descriptor.replaceNamed (language.profile.naming.typeName name)
      (.scalar category (language.profile.baseTypes.spell category))
    (config.withOverride name base).analyze language model selection includesMethods ⟨[], events⟩ =
      (config.analyze language model selection includesMethods ⟨[], events⟩).map
        fun found => (found.1.mapTypes change, found.2.mapTypes change) := by
  intro change
  have anyKeys : language.profile.scalarMapKeys = false := by
    cases language with
    | proto => exact absurd rfl other
    | _ => rfl
  rcases overrideCategories_withOverride valid fresh with
    ⟨error, refused, refused'⟩ | ⟨front, behind, read, read', others⟩
  · simp only [analyze, profile, refused, refused']
    rfl
  · have retypes := Analyzer.retypes_ofModel anyKeys free others apart category
      config.includeProposed selection
    have analyzed := retypes.analyze_mapTypes includesMethods ⟨[], events⟩
    simp only [analyze, profile, read, read']
    exact congrArg Except.ok analyzed

/-- A record whose cells are a list of names or a dictionary of them. -/
theorem Config.analyze_withOverride_of_union :
    let cell (source : String) : Node := .reference (.root source) "Cell"
    let cells : Property Node :=
      { (default : Property Node) with
        name := "cells"
        type := .union (.root "type")
          [.array (.root "array") (cell "element"),
            .map (.root "map") (.base (.root "key") "string") (cell "value")] }
    let sheet : Structure :=
      { (default : Structure) with name := "Sheet", properties := [cells] }
    let model : Model := { (default : Model) with structures := [sheet] }
    let change := Descriptor.replaceNamed "Cell" (.scalar .integer "int32")
    let definition (type : Descriptor) : Composite :=
      .union "Or_ArrCell_MapstringCell"
        [⟨"ArrCell", .array type⟩, ⟨"MapstringCell", .map (.scalar .string "string") type⟩]
    let result (config : Config) := config.analyze .go model none true ⟨[], []⟩
    let definitions (config : Config) : Option (List Composite) :=
      (result config).toOption.map (·.1.composites.map (·.2))
    Language.go ≠ .proto ∧ Category.ofBaseType? "integer" = some .integer ∧
      Language.go.profile.overrides.get? "Cell" = none ∧
      Config.defaults.typeOverrides.get? "Cell" = none ∧
      Language.go.profile.naming.TellsApart "Cell" model.referencedNames ∧
      result (Config.defaults.withOverride "Cell" "integer") =
        (result Config.defaults).map (fun found =>
          (found.1.mapTypes change, found.2.mapTypes change)) ∧
      definitions Config.defaults = some [definition (.ofName .named "Cell")] ∧
      definitions (Config.defaults.withOverride "Cell" "integer") =
        some [definition (.scalar .integer "int32")] := by
  intro cell cells sheet model change definition result definitions
  have other : Language.go ≠ .proto := by decide
  have valid : Category.ofBaseType? "integer" = some .integer := by decide
  have free : Language.go.profile.overrides.get? "Cell" = none := by decide
  have fresh : Config.defaults.typeOverrides.get? "Cell" = none := by decide
  have apart : Language.go.profile.naming.TellsApart "Cell" model.referencedNames := by
    have names : model.referencedNames = ["Cell", "Cell"] := by cbv
    rw [names]
    simp [Naming.TellsApart]
  have changed := Config.defaults.analyze_withOverride .go model none true [] other valid free fresh
    apart
  have spelled : Language.go.profile.naming.typeName "Cell" = "Cell" := by decide
  rw [spelled] at changed
  refine ⟨other, valid, free, fresh, apart, changed, ?_, ?_⟩
  · dsimp only [definitions, result, definition]
    cbv
  · dsimp only [definitions, result, definition]
    cbv

end ProtocolCodegen
