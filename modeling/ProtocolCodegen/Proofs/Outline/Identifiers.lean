import Mathlib
import ProtocolCodegen.Proofs.Outline.TypeNames
import ProtocolCodegen.Proofs.Outline.WrittenTypes
import ProtocolCodegen.Proofs.Text.SnakeCase

/-!
# Identifiers

The names of types and composites are put together from names of the protocol, from words for base
types and shapes, and from separators.  As long as the names of the protocol are identifiers, so is
every name that is put together, at whatever depth.
-/

namespace ProtocolCodegen

namespace Name

/-- An ASCII letter or digit, or an underscore. -/
def isIdentifierChar (c : Char) : Bool :=
  c.isAlphanum || c == '_'

/-- An ASCII letter or an underscore before ASCII letters, digits and underscores. -/
def isIdentifier (name : String) : Bool :=
  match name.toList with
  | [] => false
  | c :: rest => (c.isAlpha || c == '_') && rest.all isIdentifierChar

theorem exists_toList_of_isIdentifier {name : String} (identifier : isIdentifier name = true) :
    ∃ c rest, name.toList = c :: rest ∧ (c.isAlpha = true ∨ c = '_') ∧
      rest.all isIdentifierChar = true := by
  rw [isIdentifier] at identifier
  cases chars : name.toList with
  | nil => simp [chars] at identifier
  | cons c rest =>
      simp only [chars, Bool.and_eq_true, Bool.or_eq_true, beq_iff_eq] at identifier
      exact ⟨c, rest, rfl, identifier⟩

theorem all_of_isIdentifier {name : String} (identifier : isIdentifier name = true) :
    name.toList.all isIdentifierChar = true := by
  obtain ⟨c, rest, chars, front, behind⟩ := exists_toList_of_isIdentifier identifier
  rw [chars, List.all_cons, behind, Bool.and_true, isIdentifierChar]
  rcases front with letter | rfl
  · simp [Char.isAlphanum, letter]
  · rfl

theorem isIdentifier_append {first second : String} (identifier : isIdentifier first = true)
    (behind : second.toList.all isIdentifierChar = true) :
    isIdentifier (first ++ second) = true := by
  obtain ⟨c, rest, chars, front, within⟩ := exists_toList_of_isIdentifier identifier
  rw [isIdentifier, String.toList_append, chars]
  simp [List.all_append, within, behind, front]

theorem all_intercalate {separator : String} (separates : separator.toList.all isIdentifierChar)
    {names : List String} (each : ∀ name ∈ names, name.toList.all isIdentifierChar = true) :
    (String.intercalate separator names).toList.all isIdentifierChar = true := by
  induction names with
  | nil => rfl
  | cons name rest induction =>
      have first := each name List.mem_cons_self
      cases rest with
      | nil => simpa using first
      | cons next others =>
          have joined := induction fun other listed => each other (List.mem_cons_of_mem _ listed)
          rw [String.intercalate_cons_cons, String.toList_append, String.toList_append,
            List.all_append, List.all_append, first, separates, joined]
          rfl

theorem toNat_lt_of_isAlpha {c : Char} (letter : c.isAlpha = true) : c.toNat < 128 :=
  toNat_lt_of_isAlphanum (by simp [Char.isAlphanum, letter])

theorem isAlpha_toUpper {c : Char} (letter : c.isAlpha = true) : c.toUpper.isAlpha = true := by
  have table : ∀ code : Fin 128, (Char.ofNat code).isAlpha = true →
      (Char.ofNat code).toUpper.isAlpha = true := by decide
  have known := table ⟨c.toNat, toNat_lt_of_isAlpha letter⟩
  simp only [Char.ofNat_toNat] at known
  exact known letter

theorem isAlpha_publicFront {c : Char} (front : c.isAlpha = true ∨ c = '_') :
    (publicFront c).isAlpha = true := by
  rw [publicFront]
  split
  · rfl
  · exact isAlpha_toUpper (front.resolve_right ‹_›)

end Name

open Name

/-! ## Names in a profile -/

/-- All that a profile puts names together from keeps them identifiers. -/
structure Profile.NamesIdentifiers (profile : Profile) : Prop where
  base : ∀ category, isIdentifier (profile.baseTypes.ident category) = true
  unknownBase : isIdentifier profile.baseTypes.anyIdent = true
  typeName : ∀ name, isIdentifier name = true →
    isIdentifier (profile.naming.typeName name) = true
  placeholder : ∀ ident ∈ [profile.naming.literalIdent, profile.naming.constantIdent,
    profile.naming.unionIdent, profile.naming.intersectionIdent, profile.naming.tupleIdent],
    isIdentifier ident = true
  start : ∀ start ∈ profile.naming.compositeStarts, isIdentifier start = true
  separator : ∀ separator ∈ [profile.naming.unionSeparator, profile.naming.wrapperSeparator],
    separator.toList.all isIdentifierChar = true

theorem Language.isIdentifier_typeName (language : Language) {name : String}
    (identifier : isIdentifier name = true) :
    isIdentifier (language.profile.naming.typeName name) = true := by
  obtain ⟨c, rest, chars, front, behind⟩ := exists_toList_of_isIdentifier identifier
  have ascii : c.toNat < 128 := by
    rcases front with letter | rfl
    · exact toNat_lt_of_isAlpha letter
    · decide
  have unmarked : c ≠ '$' := by
    rintro rfl
    revert front
    decide
  rw [language.typeName_of_toList chars ascii unmarked, isIdentifier, String.toList_ofList]
  simp [isAlpha_publicFront front, behind]

theorem Language.namesIdentifiers (language : Language) : language.profile.NamesIdentifiers where
  base category := by
    cases language <;> cases category <;> decide
  unknownBase := by
    cases language <;> decide
  typeName _ := language.isIdentifier_typeName
  placeholder := by
    cases language <;> decide
  start := by
    cases language <;> decide
  separator := by
    cases language <;> decide

theorem Profile.NamesIdentifiers.withOverrides {profile : Profile}
    (names : profile.NamesIdentifiers) (overrides : Dictionary String Category) :
    (profile.withOverrides overrides).NamesIdentifiers where
  base := names.base
  unknownBase := names.unknownBase
  typeName := names.typeName
  placeholder := names.placeholder
  start := names.start
  separator := names.separator

/-! ## Names of types and composites -/

/-- The names in a definition: its own and those of its members, or of its field. -/
def Composite.names : Composite → List String
  | .union name variants => name :: variants.map (·.ident)
  | .wrapper name field _ => [name, field]

theorem Composite.name_mem_names (composite : Composite) : composite.name ∈ composite.names := by
  cases composite <;> exact List.mem_cons_self

namespace Lowerer

variable {lowerer : Lowerer} (names : lowerer.profile.NamesIdentifiers)

include names

theorem isIdentifier_ident {node : Node}
    (referenced : ∀ name ∈ node.references true, isIdentifier name = true) :
    isIdentifier (lowerer.ident node) = true := by
  induction node using Node.induction with
  | base source name =>
      rw [ident]
      split
      · exact names.base _
      · exact names.unknownBase
  | reference source name => exact names.typeName name (referenced name List.mem_cons_self)
  | array source element induction =>
      exact isIdentifier_append (by decide) (all_of_isIdentifier (induction referenced))
  | map source key value inductionKey inductionValue =>
      rw [Node.references, List.forall_mem_append] at referenced
      have front : isIdentifier ("Map" ++ lowerer.ident key) = true :=
        isIdentifier_append (by decide) (all_of_isIdentifier (inductionKey referenced.1))
      exact isIdentifier_append front (all_of_isIdentifier (inductionValue referenced.2))
  | literal | constant | union | intersection | tuple =>
      exact names.placeholder _ (by simp [ident])

theorem isIdentifier_unionName {members : List Node}
    (each : ∀ member ∈ members, isIdentifier (lowerer.ident member) = true) :
    isIdentifier (lowerer.unionName members) = true := by
  refine isIdentifier_append (names.start _ (by simp [Naming.compositeStarts])) ?_
  refine all_intercalate (names.separator _ List.mem_cons_self) fun name listed => ?_
  obtain ⟨member, among, rfl⟩ := List.mem_map.mp listed
  exact all_of_isIdentifier (each member among)

theorem isIdentifier_of_mapWrapping? {value : Node} {record : Wrapping}
    (wrapped : lowerer.mapWrapping? value = some record)
    (each : ∀ part ∈ value.parts, isIdentifier (lowerer.ident part) = true) :
    isIdentifier record.name = true ∧ isIdentifier record.field = true := by
  obtain ⟨source, element, rfl, rfl⟩ := mapWrapping?_eq_some wrapped
  refine ⟨?_, (by decide : isIdentifier "items" = true)⟩
  refine isIdentifier_append (names.start _ (by simp [Naming.compositeStarts])) ?_
  exact all_of_isIdentifier (each element List.mem_cons_self)

theorem isIdentifier_of_memberWrapping? {member : Node} {record : Wrapping}
    (wrapped : lowerer.memberWrapping? member = some record)
    (each : ∀ part ∈ member.parts, isIdentifier (lowerer.ident part) = true) :
    isIdentifier record.name = true ∧ isIdentifier record.field = true := by
  rcases memberWrapping?_eq_some wrapped with
    ⟨source, element, rfl, rfl⟩ | ⟨source, key, value, rfl, rfl⟩
  · refine ⟨?_, (by decide : isIdentifier "items" = true)⟩
    refine isIdentifier_append (names.start _ (by simp [Naming.compositeStarts])) ?_
    exact all_of_isIdentifier (each element List.mem_cons_self)
  · refine ⟨?_, (by decide : isIdentifier "pairs" = true)⟩
    refine isIdentifier_append (names.start _ (by simp [Naming.compositeStarts])) ?_
    have inKey := all_of_isIdentifier (each key List.mem_cons_self)
    have inValue :=
      all_of_isIdentifier (each value (List.mem_cons_of_mem _ List.mem_cons_self))
    have between := names.separator _ (List.mem_cons_of_mem _ List.mem_cons_self)
    rw [String.toList_append, String.toList_append, List.all_append, List.all_append, inKey,
      between, inValue]
    rfl

/-- The names in a definition are identifiers if those of the types at its place are. -/
theorem Gives.isIdentifier_of_mem_names {node : Node} {name : String} {composite : Composite}
    (gives : lowerer.Gives node name composite) (each : ∀ part,
      Node.Within Node.parts part node → isIdentifier (lowerer.ident part) = true) :
    ∀ own ∈ composite.names, isIdentifier own = true := by
  cases gives with
  | @union source members several =>
      have idents : ∀ member ∈ lowerer.distinctMembers members,
          isIdentifier (lowerer.ident member) = true := fun member kept =>
        each member (.part (mem_of_mem_distinctMembers lowerer kept).1 .self)
      intro own listed
      rcases List.mem_cons.mp listed with rfl | listed
      · exact isIdentifier_unionName names idents
      · simp only [List.map_map, List.mem_map, Function.comp_apply] at listed
        obtain ⟨member, kept, rfl⟩ := listed
        exact idents member kept
  | @value source key value record wrapped =>
      have inside : value ∈ (Node.map source key value).parts :=
        List.mem_cons_of_mem _ List.mem_cons_self
      have identifiers := isIdentifier_of_mapWrapping? names wrapped fun part listed =>
        each part (.part inside (.part listed .self))
      simpa [Composite.names] using identifiers
  | @member source members member record several kept wrapped =>
      have inside : member ∈ (Node.union source members).parts :=
        (mem_of_mem_distinctMembers lowerer kept).1
      have identifiers := isIdentifier_of_memberWrapping? names wrapped fun part listed =>
        each part (.part inside (.part listed .self))
      simpa [Composite.names] using identifiers

end Lowerer

/-! ## Names in an outline -/

namespace Analyzer

variable {analyzer : Analyzer}

theorem hasNode_of_mem_composites {includesMethods : Bool} {events : List Event}
    {entry : String × Composite}
    (listed : entry ∈ (analyzer.analyze includesMethods ⟨[], events⟩).1.composites) :
    ∃ node, analyzer.model.HasNode node ∧ analyzer.lowerer.Gives node entry.1 entry.2 := by
  obtain ⟨lowered, step, place, within, gives⟩ := givesInSteps_of_mem_enrolled analyzer
    ((Text.sortedBy_perm _ _).mem_iff.mp listed)
  obtain ⟨outer, written, inside⟩ := hasNode_of_lowered step
  exact ⟨place, ⟨outer, written, (within.mono Lowerer.entered_subset_parts).trans inside⟩, gives⟩

end Analyzer

/-- In each language, the identifiers of all types of a protocol, the names of all types that are
generated from it and all names in the definitions of composites are identifiers if all names that
the protocol declares or refers to are. -/
theorem Language.isIdentifier_names (language : Language) (overrides : Dictionary String Category)
    (model : Model) (includesProposed includesMethods : Bool) (selection : Option (List String))
    (events : List Event) (declared : ∀ name ∈ model.declaredNames, isIdentifier name = true)
    (referenced : ∀ name ∈ model.referencedNames, isIdentifier name = true) :
    let analyzer : Analyzer := .ofModel model (language.profile.withOverrides overrides)
      includesProposed selection
    let outline := (analyzer.analyze includesMethods ⟨[], events⟩).1
    (∀ node, model.HasNode node → isIdentifier (analyzer.lowerer.ident node) = true) ∧
      (∀ name ∈ outline.typeNames, isIdentifier name = true) ∧
      ∀ entry ∈ outline.composites,
        isIdentifier entry.1 = true ∧ ∀ name ∈ entry.2.names, isIdentifier name = true := by
  intro analyzer outline
  have names : analyzer.lowerer.profile.NamesIdentifiers :=
    language.namesIdentifiers.withOverrides overrides
  have idents (node : Node) (stands : model.HasNode node) :
      isIdentifier (analyzer.lowerer.ident node) = true :=
    Lowerer.isIdentifier_ident names fun name mentioned =>
      referenced name (Model.references_subset_of_hasNode stands mentioned)
  have composites (entry : String × Composite) (listed : entry ∈ outline.composites) :
      isIdentifier entry.1 = true ∧ ∀ name ∈ entry.2.names, isIdentifier name = true := by
    obtain ⟨node, ⟨outer, written, within⟩, gives⟩ := Analyzer.hasNode_of_mem_composites listed
    have each := gives.isIdentifier_of_mem_names names fun part inside =>
      idents part ⟨outer, written, inside.trans within⟩
    exact ⟨gives.name_eq ▸ each _ entry.2.name_mem_names, each⟩
  refine ⟨idents, fun name listed => ?_, composites⟩
  rw [Analyzer.typeNames_analyze] at listed
  rcases List.mem_append.mp listed with named | defined
  · obtain ⟨own, generated, rfl⟩ := List.mem_map.mp named
    exact names.typeName own (declared own (analyzer.generatedNames_subperm.subset generated))
  · obtain ⟨entry, defines, rfl⟩ := List.mem_map.mp defined
    exact (composites entry defines).1

/-- A union of an object and of a map to arrays of a record of an internal name. -/
theorem Language.isIdentifier_names_of_nested_union :
    let leaf : Node := .reference (.root "element") "_Leaf"
    let lists : Node :=
      .map (.root "map") (.base (.root "key") "string") (.array (.root "value") leaf)
    let children : Property Node :=
      { (default : Property Node) with
        name := "children"
        type := .union (.root "type") [lists, .base (.root "object") "LSPObject"] }
    let record : Structure :=
      { (default : Structure) with name := "_Leaf", properties := [children] }
    let model : Model := { (default : Model) with structures := [record] }
    let analyzer : Analyzer :=
      .ofModel model (Language.kotlin.profile.withOverrides []) false none
    let outline := (analyzer.analyze true ⟨[], []⟩).1
    (∀ name ∈ model.declaredNames, isIdentifier name = true) ∧
      (∀ name ∈ model.referencedNames, isIdentifier name = true) ∧
      (∀ node, model.HasNode node → isIdentifier (analyzer.lowerer.ident node) = true) ∧
      analyzer.lowerer.ident lists = "MapStringArrXLeaf" ∧
      outline.typeNames = ["XLeaf", "Or_MapStringArrXLeaf_Object"] ∧
      ∀ name ∈ outline.typeNames, isIdentifier name = true := by
  intro leaf lists children record model analyzer outline
  have declared : ∀ name ∈ model.declaredNames, isIdentifier name = true := by
    have names : model.declaredNames = ["_Leaf"] := by cbv
    rw [names]
    decide
  have referenced : ∀ name ∈ model.referencedNames, isIdentifier name = true := by
    have names : model.referencedNames = ["_Leaf"] := by cbv
    rw [names]
    decide
  have identifiers := Language.kotlin.isIdentifier_names [] model false true none [] declared
    referenced
  exact ⟨declared, referenced, identifiers.1, by cbv, by cbv, identifiers.2.1⟩

end ProtocolCodegen
