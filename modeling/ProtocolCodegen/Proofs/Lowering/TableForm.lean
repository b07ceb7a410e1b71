import Mathlib
import ProtocolCodegen.Proofs.Lowering.Forms
import ProtocolCodegen.Proofs.Lowering.Transparency

/-!
# Form of the composites

Definitions are registered at three places in the course of lowering, where a nested registration
may come first for a name.  Whatever is registered and in whatever order, a definition stands under
its own name, a union has several members in the order of their identifiers, and a wrapping record
has one field around a list or a dictionary.
-/

namespace ProtocolCodegen

/-- Distinct names that are sorted stand in strictly increasing order. -/
theorem Ledger.IsClosed.pairwise_sortedComposites {ledger : Ledger} (closed : ledger.IsClosed) :
    ledger.sortedComposites.Pairwise fun first second => first.1 < second.1 := by
  have distinct : (ledger.sortedComposites.map (·.1)).Nodup :=
    ((Text.sortedBy_perm _ _).map _).nodup_iff.mpr closed.distinct
  refine ((Text.pairwise_sortedBy _ _).and (List.pairwise_map.mp distinct)).imp ?_
  exact fun ordered => lt_of_le_of_ne ordered.1 ordered.2

namespace Lowerer

variable {lowerer : Lowerer}

/-- The forms of definitions: a union of several members, which are told apart by their identifiers
and name it, and a record around a list or a dictionary, which is named after its element or after
its key and its value. -/
def WellFormed (lowerer : Lowerer) : Composite → Prop
  | .union name variants =>
      2 ≤ variants.length ∧ (variants.map (·.ident)).Pairwise (· < ·) ∧
        name = "Or_" ++ String.intercalate "_" (variants.map (·.ident))
  | .wrapper name field wrapped =>
      (∃ element, wrapped = .array (lowerer.descriptor element) ∧ field = "items" ∧
        (name = "MapArray_" ++ lowerer.ident element ∨
          name = "ArrayOf_" ++ lowerer.ident element)) ∨
      ∃ key value, wrapped = .map (lowerer.mapKey (lowerer.descriptor key))
          (wrap (lowerer.mapWrapping? value) (lowerer.descriptor value)) ∧ field = "pairs" ∧
        name = "MapOf_" ++ lowerer.ident key ++ "_" ++ lowerer.ident value

/-- Whether the names of composites are those of the convention. -/
def NamesAsStandard (lowerer : Lowerer) : Prop :=
  ∃ reserved, lowerer.profile.naming = { Naming.standard with reserved := reserved }

theorem NamesAsStandard.wellFormed_union (named : lowerer.NamesAsStandard) {members : List Node}
    (several : 2 ≤ (lowerer.distinctMembers members).length) :
    lowerer.WellFormed (lowerer.unionOf (lowerer.distinctMembers members)) := by
  obtain ⟨reserved, naming⟩ := named
  have idents : ((lowerer.distinctMembers members).map fun node =>
      (⟨lowerer.ident node, lowerer.memberDescriptor node⟩ : Variant)).map (·.ident) =
        (lowerer.distinctMembers members).map lowerer.ident := by
    rw [List.map_map]
    rfl
  refine ⟨by rwa [List.length_map], ?_, ?_⟩
  · rw [idents]
    exact List.pairwise_map.mpr (pairwise_distinctMembers lowerer members)
  · rw [idents, unionName, naming]
    rfl

theorem NamesAsStandard.wellFormed_value (named : lowerer.NamesAsStandard) {value : Node}
    {record : Wrapping} (wrapped : lowerer.mapWrapping? value = some record) :
    lowerer.WellFormed (.wrapper record.name record.field (lowerer.descriptor value)) := by
  obtain ⟨reserved, naming⟩ := named
  obtain ⟨source, element, rfl, rfl⟩ := mapWrapping?_eq_some wrapped
  refine .inl ⟨element, rfl, rfl, .inl ?_⟩
  rw [naming]
  rfl

theorem NamesAsStandard.wellFormed_member (named : lowerer.NamesAsStandard) {member : Node}
    {record : Wrapping} (wrapped : lowerer.memberWrapping? member = some record) :
    lowerer.WellFormed (.wrapper record.name record.field (lowerer.descriptor member)) := by
  obtain ⟨reserved, naming⟩ := named
  rcases memberWrapping?_eq_some wrapped with
    ⟨source, element, rfl, rfl⟩ | ⟨source, key, value, rfl, rfl⟩
  · refine .inl ⟨element, rfl, rfl, .inr ?_⟩
    rw [naming]
    rfl
  · refine .inr ⟨key, value, rfl, rfl, ?_⟩
    rw [naming]
    simp only [Naming.standard, String.append_assoc]

/-- Whatever a type registers has one of the forms. -/
theorem Gives.wellFormed {node : Node} {name : String} {composite : Composite}
    (gives : lowerer.Gives node name composite) (named : lowerer.NamesAsStandard) :
    lowerer.WellFormed composite := by
  cases gives with
  | union several => exact named.wellFormed_union several
  | value wrapped => exact named.wellFormed_value wrapped
  | member several listed wrapped => exact named.wellFormed_member wrapped

end Lowerer

theorem Language.namesAsStandard (language : Language) (overrides : Dictionary String Category)
    (model : Model) (includesProposed : Bool) :
    (Lowerer.ofModel model (language.profile.withOverrides overrides)
      includesProposed).NamesAsStandard := by
  refine ⟨language.profile.naming.reserved, ?_⟩
  cases language <;> rfl

/-- Whatever types are lowered one after the other, every definition stands under its own name and
has one of the forms, and the sorted definitions are all definitions in strictly increasing
order. -/
theorem Language.lowerAll_wellFormed (language : Language)
    (overrides : Dictionary String Category) (model : Model) (includesProposed : Bool)
    (nodes : List (Option Node)) (events : List Event) :
    let lowerer : Lowerer := .ofModel model (language.profile.withOverrides overrides)
      includesProposed
    let ledger := ((lowerer.lowerAll nodes).run ⟨[], events⟩).2
    (∀ entry ∈ ledger.composites, entry.1 = entry.2.name ∧ lowerer.WellFormed entry.2) ∧
      ledger.sortedComposites.Perm ledger.composites ∧
      ledger.sortedComposites.Pairwise fun first second => first.1 < second.1 := by
  intro lowerer ledger
  refine ⟨fun entry listed => ?_, Text.sortedBy_perm _ _, ?_⟩
  · rcases (lowerer.growth_lowerAll nodes _).1.mem_composites listed with
      before | ⟨_, ⟨gives, _⟩, _⟩
    · cases before
    · obtain ⟨node, -, place, -, gives⟩ := gives
      exact ⟨gives.name_eq.symm,
        gives.wellFormed (language.namesAsStandard overrides model includesProposed)⟩
  · exact (Lowerer.isClosed_lowerAll nodes events).pairwise_sortedComposites

/-- In proto, a map of arrays takes a record around the array. -/
example :
    let lowerer : Lowerer := .ofModel default Language.proto.profile false
    let array : Node := .array (.root "array") (.reference (.root "element") "A")
    let map : Node := .map (.root "map") (.base (.root "key") "string") array
    ((lowerer.lowerAll [some map]).run .empty).2.composites =
      [("MapArray_A", .wrapper "MapArray_A" "items" (.array (.ofName .named "A")))] := by
  cbv

end ProtocolCodegen
