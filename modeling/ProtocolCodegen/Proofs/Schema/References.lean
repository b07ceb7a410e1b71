import ProtocolCodegen.Proofs.Schema.Subnodes
import ProtocolCodegen.Schema.References

/-!
# References in lists

The references of a list of types or properties are those of its items.  Including what is proposed
only adds references.
-/

namespace ProtocolCodegen.Node

variable {includesProposed : Bool} {name : String}

theorem mem_referencesOfMembers_iff {members : List Node} :
    name ∈ referencesOfMembers includesProposed members ↔
      ∃ member ∈ members, name ∈ member.references includesProposed := by
  induction members with
  | nil => simp [referencesOfMembers]
  | cons member rest induction => simp [referencesOfMembers, induction]

theorem mem_referencesOfProperties_iff {properties : List (Property Node)} :
    name ∈ referencesOfProperties includesProposed properties ↔
      ∃ property ∈ properties, (property.proposed = true → includesProposed = true) ∧
        name ∈ property.type.references includesProposed := by
  induction properties with
  | nil => simp [referencesOfProperties]
  | cons property rest induction =>
      have first : name ∈ (if property.proposed && !includesProposed then []
          else property.type.references includesProposed) ↔
          (property.proposed = true → includesProposed = true) ∧
            name ∈ property.type.references includesProposed := by
        cases property.proposed <;> cases includesProposed <;> simp
      simp only [referencesOfProperties, List.mem_append, first, induction, List.mem_cons,
        exists_eq_or_imp]

theorem referencesOfMembers_mono {members : List Node}
    (each : ∀ member ∈ members, name ∈ member.references false → name ∈ member.references true)
    (stable : name ∈ referencesOfMembers false members) :
    name ∈ referencesOfMembers true members := by
  obtain ⟨member, listed, mentioned⟩ := mem_referencesOfMembers_iff.mp stable
  exact mem_referencesOfMembers_iff.mpr ⟨member, listed, each member listed mentioned⟩

/-- A stable reference stays one when proposed properties are included. -/
theorem references_mono {node : Node} (stable : name ∈ node.references false) :
    name ∈ node.references true := by
  induction node using Node.induction with
  | base source name => cases stable
  | reference source name => exact stable
  | array source element induction => exact induction stable
  | map source key value inductionKey inductionValue =>
      rcases List.mem_append.mp stable with inKey | inValue
      · exact List.mem_append_left _ (inductionKey inKey)
      · exact List.mem_append_right _ (inductionValue inValue)
  | literal source properties induction =>
      obtain ⟨property, listed, _, mentioned⟩ := mem_referencesOfProperties_iff.mp stable
      exact mem_referencesOfProperties_iff.mpr
        ⟨property, listed, fun _ => rfl, induction property listed mentioned⟩
  | constant source value => cases stable
  | union source members induction => exact referencesOfMembers_mono induction stable
  | intersection source members induction => exact referencesOfMembers_mono induction stable
  | tuple source members induction => exact referencesOfMembers_mono induction stable

theorem references_subset_of_part {part node : Node} (listed : part ∈ node.parts) :
    part.references true ⊆ node.references true := by
  intro name mentioned
  cases node with
  | array source element =>
      obtain rfl := List.mem_singleton.mp listed
      exact mentioned
  | map source key value =>
      simp only [parts, List.mem_cons, List.not_mem_nil, or_false] at listed
      rcases listed with rfl | rfl
      · exact List.mem_append_left _ mentioned
      · exact List.mem_append_right _ mentioned
  | literal source properties =>
      obtain ⟨property, among, rfl⟩ := List.mem_map.mp listed
      exact mem_referencesOfProperties_iff.mpr ⟨property, among, fun _ => rfl, mentioned⟩
  | union | intersection | tuple =>
      exact mem_referencesOfMembers_iff.mpr ⟨part, listed, mentioned⟩
  | base | reference | constant => cases listed

/-- A type refers to all that the types within it refer to. -/
theorem references_subset_of_within {inner outer : Node} (within : Within parts inner outer) :
    inner.references true ⊆ outer.references true := by
  induction within with
  | self => exact List.Subset.refl _
  | part listed _ induction => exact List.Subset.trans induction (references_subset_of_part listed)

theorem mem_referenceSet_iff {node : Option Node} :
    name ∈ referenceSet includesProposed node ↔
      ∃ whole, node = some whole ∧ name ∈ whole.references includesProposed := by
  cases node with
  | none => simp [referenceSet, Text.mem_sortedSet]
  | some whole => simp [referenceSet, Text.mem_sortedSet]

theorem referenceSet_mono {node : Option Node} (stable : name ∈ referenceSet false node) :
    name ∈ referenceSet true node := by
  obtain ⟨whole, present, mentioned⟩ := mem_referenceSet_iff.mp stable
  exact mem_referenceSet_iff.mpr ⟨whole, present, references_mono mentioned⟩

end ProtocolCodegen.Node
