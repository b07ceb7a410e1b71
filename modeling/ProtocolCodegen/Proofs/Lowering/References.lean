import ProtocolCodegen.Proofs.Lowering.Registration
import ProtocolCodegen.Proofs.Schema.References

/-!
# References of lowered types

The declared types in a descriptor, and in the definitions that lowering registers for it, are those
to which the type of the schema refers.
-/

namespace ProtocolCodegen

namespace Lowerer

variable {lowerer : Lowerer} {includesProposed : Bool}

theorem references_subset_of_entered {part node : Node} (listed : part ∈ lowerer.entered node) :
    part.references includesProposed ⊆ node.references includesProposed := by
  cases node with
  | array source element =>
      obtain rfl := List.mem_singleton.mp listed
      exact List.Subset.refl _
  | map source key value =>
      rcases List.mem_pair.mp listed with rfl | rfl
      · exact List.subset_append_left _ _
      · exact List.subset_append_right _ _
  | union source members =>
      intro name mentioned
      exact Node.mem_referencesOfMembers_iff.mpr
        ⟨part, mem_of_mem_unionShape lowerer listed, mentioned⟩
  | _ => cases listed

theorem references_subset_of_within {place node : Node}
    (within : Node.Within lowerer.entered place node) :
    place.references includesProposed ⊆ node.references includesProposed := by
  induction within with
  | self => exact List.Subset.refl _
  | part listed _ induction =>
      exact List.Subset.trans induction (references_subset_of_entered listed)

/-- Every declared type in a descriptor is one of some names. -/
def NamesAmong (lowerer : Lowerer) (names : List String) (descriptor : Descriptor) : Prop :=
  ∀ inner : Descriptor, inner.Within descriptor → inner.kind = .named →
    ∃ name ∈ names, inner.name = lowerer.profile.naming.typeName name

theorem NamesAmong.mono {names names' : List String} {descriptor : Descriptor}
    (among : lowerer.NamesAmong names descriptor) (more : names ⊆ names') :
    lowerer.NamesAmong names' descriptor := by
  intro inner within named
  obtain ⟨name, listed, equal⟩ := among inner within named
  exact ⟨name, more listed, equal⟩

theorem namesAmong_of_arguments {names : List String} {descriptor : Descriptor}
    (different : (descriptor.kind == .named) = false)
    (each : ∀ argument ∈ descriptor.arguments, lowerer.NamesAmong names argument) :
    lowerer.NamesAmong names descriptor := by
  intro inner within named
  rcases Descriptor.within_iff.mp within with rfl | ⟨argument, listed, within⟩
  · simp [named] at different
  · exact each argument listed inner within named

theorem namesAmong_scalar (names : List String) (category : Category) :
    lowerer.NamesAmong names (lowerer.scalar category) :=
  namesAmong_of_arguments rfl (List.forall_mem_nil _)

theorem namesAmong_anything (names : List String) : lowerer.NamesAmong names lowerer.anything :=
  namesAmong_of_arguments rfl (List.forall_mem_nil _)

theorem namesAmong_reference (name : String) :
    lowerer.NamesAmong [name] (lowerer.reference name) := by
  rw [reference]
  split
  · exact namesAmong_scalar [name] _
  · intro inner within _
    rcases Descriptor.within_iff.mp within with rfl | ⟨argument, listed, _⟩
    · exact ⟨name, List.mem_singleton_self name, rfl⟩
    · cases listed

theorem NamesAmong.wrap {names : List String} {wrapped : Descriptor}
    (among : lowerer.NamesAmong names wrapped) (wrapping : Option Wrapping) :
    lowerer.NamesAmong names (wrap wrapping wrapped) := by
  cases wrapping with
  | some record => exact namesAmong_of_arguments rfl (List.forall_mem_nil _)
  | none => exact among

theorem NamesAmong.map {names : List String} {key value : Descriptor}
    (inKey : lowerer.NamesAmong names key) (inValue : lowerer.NamesAmong names value) :
    lowerer.NamesAmong names (.map (lowerer.mapKey key) value) := by
  have inMapKey : lowerer.NamesAmong names (lowerer.mapKey key) := by
    rw [mapKey]
    split
    · exact namesAmong_scalar names .string
    · exact inKey
  refine namesAmong_of_arguments rfl fun argument listed => ?_
  rcases List.mem_pair.mp listed with rfl | rfl
  · exact inMapKey
  · exact inValue

theorem namesAmong_union {source : Path} {members : List Node}
    (each : ∀ member ∈ members,
      lowerer.NamesAmong (member.references includesProposed) (lowerer.descriptor member)) :
    lowerer.NamesAmong ((Node.union source members).references includesProposed)
      (lowerer.descriptor (.union source members)) := by
  have entered {member : Node} (listed : member ∈ (lowerer.unionShape members).members) :
      lowerer.NamesAmong ((Node.union source members).references includesProposed)
        (lowerer.descriptor member) :=
    (each member (mem_of_mem_unionShape lowerer listed)).mono
      (references_subset_of_entered listed)
  rw [descriptor_union]
  cases shape : lowerer.unionShape members with
  | optional member =>
      have among := entered (by rw [shape]; exact List.mem_cons_self)
      exact namesAmong_of_arguments rfl fun argument listed =>
        (List.mem_singleton.mp listed).symm ▸ among
  | empty => exact namesAmong_anything _
  | single member => exact entered (by rw [shape]; exact List.mem_cons_self)
  | several different => exact namesAmong_of_arguments rfl (List.forall_mem_nil _)

/-- The declared types in the descriptor of a type are among its references. -/
theorem namesAmong_descriptor (lowerer : Lowerer) (includesProposed : Bool) (node : Node) :
    lowerer.NamesAmong (node.references includesProposed) (lowerer.descriptor node) := by
  induction node using Node.induction with
  | base source name =>
      rw [descriptor]
      split
      · exact namesAmong_scalar _ _
      · exact namesAmong_anything _
  | reference source name => exact namesAmong_reference name
  | array source element induction =>
      exact namesAmong_of_arguments rfl fun argument listed =>
        (List.mem_singleton.mp listed).symm ▸ induction
  | map source key value inductionKey inductionValue =>
      have inKey :=
        inductionKey.mono (List.subset_append_left _ (value.references includesProposed))
      have inValue :=
        inductionValue.mono (List.subset_append_right (key.references includesProposed) _)
      exact inKey.map (inValue.wrap _)
  | literal source properties => exact namesAmong_anything _
  | constant source value => exact namesAmong_of_arguments rfl (List.forall_mem_nil _)
  | union source members induction => exact namesAmong_union induction
  | intersection source members => exact namesAmong_anything _
  | tuple source members => exact namesAmong_scalar _ _

/-- The declared types in a definition that belongs to a type are among the references of that
type. -/
theorem namesAmong_of_gives {place : Node} {name : String} {composite : Composite}
    (gives : lowerer.Gives place name composite) (includesProposed : Bool) :
    ∀ type ∈ composite.descriptors,
      lowerer.NamesAmong (place.references includesProposed) type := by
  intro type inside
  obtain ⟨part, listed, wrapping, rfl⟩ := exists_entered_of_gives gives inside
  have among := (lowerer.namesAmong_descriptor includesProposed part).mono
    (references_subset_of_entered listed)
  exact among.wrap wrapping

theorem namesAmong_of_givesWithin {node : Node} {name : String} {composite : Composite}
    (gives : lowerer.GivesWithin lowerer.entered node name composite) (includesProposed : Bool) :
    ∀ type ∈ composite.descriptors,
      lowerer.NamesAmong (node.references includesProposed) type := by
  obtain ⟨place, within, gives⟩ := gives
  exact fun type inside =>
    (namesAmong_of_gives gives includesProposed type inside).mono
      (references_subset_of_within within)

end Lowerer
end ProtocolCodegen
