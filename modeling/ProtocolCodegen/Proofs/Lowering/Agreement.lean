import ProtocolCodegen.Proofs.Lowering.Retyping

/-!
# Lowerers that agree

Of the protocol a lowerer only knows which names are proposed.  Two lowerers of one profile that
tell the same names for proposed lower every type alike and do the same to a ledger.
-/

namespace ProtocolCodegen

namespace Lowerer

/-- Two lowerers of one profile that tell the same names for proposed ones. -/
structure Alike (lowerer lowerer' : Lowerer) : Prop where
  profile : lowerer'.profile = lowerer.profile
  includesProposed : lowerer'.includesProposed = lowerer.includesProposed
  proposed : ∀ name, lowerer'.proposed.get? name = lowerer.proposed.get? name

namespace Alike

variable {lowerer lowerer' : Lowerer}

theorem refl (lowerer : Lowerer) : lowerer.Alike lowerer where
  profile := rfl
  includesProposed := rfl
  proposed := fun _ => rfl

variable (alike : lowerer.Alike lowerer')

include alike

theorem sharesNames : lowerer.SharesNames lowerer' where
  baseTypes := by rw [alike.profile]
  naming := by rw [alike.profile]
  wrapsMapArrays := by rw [alike.profile]
  wrapsUnionCollections := by rw [alike.profile]
  includesProposed := alike.includesProposed
  proposed := alike.proposed

theorem reference_eq (name : String) : lowerer'.reference name = lowerer.reference name := by
  simp only [reference, alike.sharesNames.scalar_eq, alike.profile]

theorem mapKey_eq (key : Descriptor) : lowerer'.mapKey key = lowerer.mapKey key := by
  rw [mapKey, mapKey, alike.sharesNames.scalar_eq, alike.profile]

/-- Lowerers that agree change nothing. -/
theorem retypes (names : List String) : Retypes id names lowerer lowerer' where
  shares := alike.sharesNames
  changes := ⟨fun _ _ _ => rfl, fun _ _ _ => rfl, fun _ => rfl, fun _ _ => rfl, fun _ => rfl⟩
  reference name _ := alike.reference_eq name
  mapKey := alike.mapKey_eq

theorem descriptor_eq (node : Node) : lowerer'.descriptor node = lowerer.descriptor node :=
  (alike.retypes (node.references true)).descriptor_eq (List.Subset.refl _)

theorem descriptorOf_eq (node : Option Node) :
    lowerer'.descriptorOf node = lowerer.descriptorOf node := by
  cases node with
  | none => exact alike.sharesNames.anything_eq
  | some node => exact alike.descriptor_eq node

theorem enroll_eq (node : Node) (ledger : Ledger) :
    lowerer'.enroll node ledger = lowerer.enroll node ledger := by
  have retypes := alike.retypes (node.references true)
  have enrolled := retypes.enroll_mapTypes (List.Subset.refl _) ledger
  rwa [Ledger.mapTypes_id, Ledger.mapTypes_id] at enrolled

theorem enrollOf_eq (node : Option Node) (ledger : Ledger) :
    lowerer'.enrollOf node ledger = lowerer.enrollOf node ledger := by
  cases node with
  | none => rfl
  | some node => exact alike.enroll_eq node ledger

end Alike
end Lowerer
end ProtocolCodegen
