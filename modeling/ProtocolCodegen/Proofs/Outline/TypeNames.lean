import Mathlib
import ProtocolCodegen.Proofs.Outline.BuiltTypes
import ProtocolCodegen.Target.Language

/-!
# Names of the types of an outline

All types of an outline are generated into one namespace.  A declaration gets its name by a change
at the front, so that different declarations can get one name, and a composite can get the name of a
declaration.  Composites never share a name among themselves.
-/

namespace ProtocolCodegen

/-- The names of all types of an outline. -/
def Outline.typeNames (outline : Outline) : List String :=
  outline.classes.map (·.name) ++ outline.enums.map (·.name) ++ outline.aliases.map (·.name) ++
    outline.composites.map (·.2.name)

namespace Outline

variable {outline : Outline}

theorem disjoint_declarations (distinct : outline.typeNames.Nodup) :
    (outline.classes.map (·.name)).Disjoint (outline.enums.map (·.name)) ∧
      (outline.classes.map (·.name)).Disjoint (outline.aliases.map (·.name)) ∧
      (outline.enums.map (·.name)).Disjoint (outline.aliases.map (·.name)) := by
  simp only [typeNames, List.nodup_append', List.disjoint_append_left] at distinct
  tauto

theorem eq_of_alias_names (distinct : outline.typeNames.Nodup) {first second : Alias}
    (listed : first ∈ outline.aliases) (listed' : second ∈ outline.aliases)
    (same : first.name = second.name) : first = second := by
  simp only [typeNames, List.nodup_append'] at distinct
  exact List.inj_on_of_nodup_map distinct.1.2.1 listed listed' same

end Outline

namespace Name

/-- The character that takes the place of an ASCII character at the front of a name. -/
def publicFront (c : Char) : Char :=
  if c = '_' then 'X' else c.toUpper

/-- A name begins with an ASCII character, and not with the mark of an internal name. -/
def IsPlain (name : String) : Prop :=
  ∃ c rest, name.toList = c :: rest ∧ c.toNat < 128 ∧ c ≠ '$'

/-- Two names are equal behind the first character, and there they have the same letter in any case,
or each an underscore or an X. -/
def AlikeBehindFront (first second : String) : Prop :=
  ∃ c d rest, first.toList = c :: rest ∧ second.toList = d :: rest ∧ publicFront c = publicFront d

/-- A name begins with an ASCII capital. -/
def IsCapitalized (name : String) : Prop :=
  ∃ c rest, name.toList = c :: rest ∧ c.isUpper = true

theorem capitalize_of_toList {name : String} {c : Char} {rest : List Char}
    (chars : name.toList = c :: rest) (ascii : c.toNat < 128) :
    capitalize name = String.ofList (c.toUpper :: rest) := by
  rw [capitalize, chars]
  simp only [Text.upperChar, if_pos ascii, List.singleton_append]

end Name

namespace Language

variable (language : Language) (overrides : Dictionary String Category)

theorem lookup_reserved {c : Char} (unmarked : c ≠ '$') :
    language.profile.naming.reserved.lookup c = if c = '_' then some "X" else none := by
  have noDollar : (c == '$') = false := beq_eq_false_iff_ne.mpr unmarked
  by_cases underscore : c = '_'
  · subst underscore
    cases language <;> rfl
  · have noUnderscore : (c == '_') = false := beq_eq_false_iff_ne.mpr underscore
    cases language <;>
      simp [profile, Go.profile, Kotlin.profile, Proto.profile, Naming.standard,
        Name.defaultReserved, List.lookup_cons, noDollar, noUnderscore, underscore]

theorem typeName_of_toList {name : String} {c : Char} {rest : List Char}
    (chars : name.toList = c :: rest) (ascii : c.toNat < 128) (unmarked : c ≠ '$') :
    language.profile.naming.typeName name = String.ofList (Name.publicFront c :: rest) := by
  rw [Naming.typeName, Name.exported, chars]
  simp only [lookup_reserved language unmarked, Name.publicFront]
  by_cases underscore : c = '_'
  · simp only [if_pos underscore]
    refine Name.capitalize_of_toList (c := 'X') ?_ (by decide)
    simp
  · simp only [if_neg underscore]
    exact Name.capitalize_of_toList chars ascii

theorem typeName_eq_iff {first second : String} (plain : Name.IsPlain first)
    (plain' : Name.IsPlain second) :
    language.profile.naming.typeName first = language.profile.naming.typeName second ↔
      Name.AlikeBehindFront first second := by
  obtain ⟨c, rest, chars, ascii, unmarked⟩ := plain
  obtain ⟨d, rest', chars', ascii', unmarked'⟩ := plain'
  rw [language.typeName_of_toList chars ascii unmarked,
    language.typeName_of_toList chars' ascii' unmarked']
  simp [Name.AlikeBehindFront, chars, chars', String.ofList_inj, and_comm, eq_comm]

theorem typeName_of_isCapitalized {name : String} (capitalized : Name.IsCapitalized name) :
    language.profile.naming.typeName name = name := by
  obtain ⟨c, rest, chars, upper⟩ := capitalized
  have bounds : c.toNat < 128 := by
    simp only [Char.isUpper, decide_eq_true_eq, UInt32.le_iff_toNat_le] at upper
    exact Nat.lt_of_le_of_lt upper.2 (by decide)
  have noDollar : c ≠ '$' := by
    rintro rfl
    exact absurd upper (by decide)
  have kept : Name.publicFront c = c := by
    rw [Name.publicFront, if_neg]
    · exact Char.toUpper_eq_of_not_isLower (Char.not_isLower_of_isUpper upper)
    · rintro rfl
      exact absurd upper (by decide)
  rw [language.typeName_of_toList chars bounds noDollar, kept, ← chars, String.ofList_toList]

end Language

namespace Analyzer

variable {analyzer : Analyzer}

/-- The names of the declarations that are generated. -/
def generatedNames (analyzer : Analyzer) : List String :=
  analyzer.structures.map (·.name) ++ analyzer.enumerations.map (·.name) ++
    analyzer.aliases.map (·.name)

theorem generatedNames_subperm (analyzer : Analyzer) :
    analyzer.generatedNames.Subperm analyzer.model.declaredNames := by
  have generated {α : Type} (name : α → String) (included : α → Bool) (items : List α) :
      (((Text.sortedBy name items).filter included).map name).Subperm (items.map name) :=
    (List.filter_sublist.map name).subperm.trans ((Text.sortedBy_perm name items).map name).subperm
  rw [generatedNames, Model.declaredNames_eq]
  exact ((generated _ _ _).append (generated _ _ _)).append (generated _ _ _)

theorem nodup_generatedNames (distinct : analyzer.model.declaredNames.Nodup) :
    analyzer.generatedNames.Nodup := by
  obtain ⟨names, reordered, part⟩ := generatedNames_subperm analyzer
  exact reordered.nodup_iff.mp (distinct.sublist part)

/-- The types that are generated from declarations have the type names of these, and the names of
composites are the names under which they were registered. -/
theorem typeNames_analyze {includesMethods : Bool} {events : List Event} :
    (analyzer.analyze includesMethods ⟨[], events⟩).1.typeNames =
      analyzer.generatedNames.map analyzer.typeName ++
        (analyzer.analyze includesMethods ⟨[], events⟩).1.composites.map (·.1) := by
  have registered : ∀ entry ∈ (analyzer.analyze includesMethods ⟨[], events⟩).1.composites,
      entry.2.name = entry.1 := by
    intro entry listed
    obtain ⟨place, gives⟩ := gives_of_mem_composites listed
    exact gives.name_eq
  rw [Outline.typeNames, List.map_congr_left registered]
  simp only [analyze, outline, generatedNames, List.map_append, List.map_map]
  rfl

/-- All type names are distinct exactly if no two declarations and no declaration and a composite
have one name. -/
theorem nodup_typeNames_analyze_iff (distinct : analyzer.model.declaredNames.Nodup)
    (includesMethods : Bool) (events : List Event) :
    (analyzer.analyze includesMethods ⟨[], events⟩).1.typeNames.Nodup ↔
      (∀ first ∈ analyzer.generatedNames, ∀ second ∈ analyzer.generatedNames,
        analyzer.typeName first = analyzer.typeName second → first = second) ∧
      ∀ name ∈ analyzer.generatedNames, analyzer.typeName name ∉
        (analyzer.analyze includesMethods ⟨[], events⟩).1.composites.map (·.1) := by
  rw [typeNames_analyze, List.nodup_append', List.nodup_map_iff_inj_on
    (nodup_generatedNames distinct), List.disjoint_left]
  simp only [nodup_composites, true_and, List.forall_mem_map]

end Analyzer

/-- Let the names of declarations be distinct.  The names of the types of an outline are distinct
exactly if no two declarations get one type name and no declaration gets the name of a composite.
Names that begin plainly get one type name exactly if they are alike behind the front.  Names that
begin with a capital, and not as the names of composites do, keep all type names distinct. -/
theorem Language.nodup_typeNames_iff (language : Language) (overrides : Dictionary String Category)
    (model : Model) (includesProposed includesMethods : Bool) (selection : Option (List String))
    (events : List Event) (distinct : model.declaredNames.Nodup) :
    let profile := language.profile.withOverrides overrides
    let analyzer : Analyzer := .ofModel model profile includesProposed selection
    let outline := (analyzer.analyze includesMethods ⟨[], events⟩).1
    (outline.typeNames.Nodup ↔
      (∀ first ∈ analyzer.generatedNames, ∀ second ∈ analyzer.generatedNames,
        analyzer.typeName first = analyzer.typeName second → first = second) ∧
      ∀ name ∈ analyzer.generatedNames, analyzer.typeName name ∉ outline.composites.map (·.1)) ∧
    (∀ first second, Name.IsPlain first → Name.IsPlain second →
      (analyzer.typeName first = analyzer.typeName second ↔
        Name.AlikeBehindFront first second)) ∧
    ((∀ name ∈ analyzer.generatedNames, Name.IsCapitalized name ∧
        ∀ start ∈ profile.naming.compositeStarts, ¬start.toList <+: name.toList) →
      outline.typeNames.Nodup) := by
  intro profile analyzer outline
  have characterized :=
    analyzer.nodup_typeNames_analyze_iff distinct includesMethods events
  refine ⟨characterized, fun first second => language.typeName_eq_iff, fun apart => ?_⟩
  have kept {name : String} (listed : name ∈ analyzer.generatedNames) :
      analyzer.typeName name = name :=
    language.typeName_of_isCapitalized (apart name listed).1
  refine characterized.mpr
    ⟨fun first listed second listed' equal => ?_, fun name listed clash => ?_⟩
  · rwa [kept listed, kept listed'] at equal
  · rw [kept listed] at clash
    obtain ⟨entry, among, same⟩ := List.mem_map.mp clash
    obtain ⟨place, gives⟩ := Analyzer.gives_of_mem_composites among
    obtain ⟨start, starts, rest, named⟩ := gives.exists_start
    refine (apart name listed).2 start starts ?_
    rw [← same, named, String.toList_append]
    exact List.prefix_append _ _

/-- In proto, the names of two declarations and of the record around a list are distinct. -/
theorem Language.nodup_typeNames_iff_capitals :
    let type : Node := .map (.root "type") (.base (.root "key") "string")
      (.array (.root "value") (.base (.root "element") "integer"))
    let range : Structure :=
      { (default : Structure) with
        name := "Range"
        properties := [{ (default : Property Node) with name := "lines", type }] }
    let kind : Enumeration := { (default : Enumeration) with name := "Kind" }
    let model : Model :=
      { (default : Model) with structures := [range], enumerations := [kind] }
    let analyzer : Analyzer := .ofModel model (Language.proto.profile.withOverrides []) false none
    let outline := (analyzer.analyze true ⟨[], []⟩).1
    model.declaredNames.Nodup ∧ outline.typeNames = ["Range", "Kind", "MapArray_Int32"] ∧
      outline.typeNames.Nodup := by
  intro type range kind model analyzer outline
  have distinct : model.declaredNames.Nodup := by decide
  have generated : analyzer.generatedNames = ["Range", "Kind"] := by cbv
  obtain ⟨_, _, sufficient⟩ := nodup_typeNames_iff .proto [] model false true none [] distinct
  refine ⟨distinct, by cbv, sufficient fun name listed => ?_⟩
  rw [generated] at listed
  rcases List.mem_pair.mp listed with rfl | rfl
  · exact ⟨⟨'R', _, rfl, rfl⟩, by decide⟩
  · exact ⟨⟨'K', _, rfl, rfl⟩, by decide⟩

/-- In go, two records whose names differ in the case of the first letter get one type name. -/
theorem Language.typeNames_eq_of_different_names :
    let record (name : String) : Structure := { (default : Structure) with name }
    let model : Model := { (default : Model) with structures := [record "Foo", record "foo"] }
    let analyzer : Analyzer := .ofModel model (Language.go.profile.withOverrides []) false none
    let outline := (analyzer.analyze true ⟨[], []⟩).1
    model.declaredNames = ["Foo", "foo"] ∧ outline.typeNames = ["Foo", "Foo"] := by
  intro record model analyzer outline
  exact ⟨by cbv, by cbv⟩

end ProtocolCodegen
