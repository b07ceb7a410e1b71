import ProtocolCodegen.Proofs.Outline.LoweredTypes
import ProtocolCodegen.Proofs.Outline.Selection
import ProtocolCodegen.Proofs.Schema.Places
import ProtocolCodegen.Proofs.Schema.PostOrder
import ProtocolCodegen.Proofs.Schema.References

/-!
# Written types

An analysis lowers no type that is not written in the protocol, so that it meets no names but those
to which the protocol refers.
-/

namespace ProtocolCodegen

namespace Model

variable {model : Model}

/-- The names to which the types of a protocol refer. -/
def referencedNames (model : Model) : List String :=
  model.writtenTypes.flatMap (Node.references true)

theorem references_subset_of_hasNode {node : Node} (stands : model.HasNode node) :
    node.references true ⊆ model.referencedNames := by
  obtain ⟨outer, written, within⟩ := stands
  intro name mentioned
  exact List.mem_flatMap.mpr ⟨outer, written, Node.references_subset_of_within within mentioned⟩

theorem hasNode_property {declared : Structure} {property : Property Node}
    (known : declared ∈ model.structures) (own : property ∈ declared.properties) :
    model.HasNode property.type := by
  have inside : property.type ∈ declared.types :=
    List.mem_append_left _ (List.mem_append_left _ (List.mem_map_of_mem own))
  refine ⟨property.type, ?_, .self⟩
  simp only [writtenTypes, List.mem_append, List.mem_flatMap]
  exact .inl (.inl (.inr ⟨declared, known, inside⟩))

theorem hasNode_alias {declared : TypeAlias} {node : Node} (known : declared ∈ model.aliases)
    (typed : declared.type = some node) : model.HasNode node := by
  refine ⟨node, ?_, .self⟩
  simp only [writtenTypes, List.mem_append, List.mem_filterMap]
  exact .inr ⟨declared, known, typed⟩

theorem hasNode_request {request : Request} {node : Node} (known : request ∈ model.requests)
    (typed : request.params = some node ∨ request.result = some node) : model.HasNode node := by
  have inside : node ∈ request.types := by
    rw [Request.types, List.reduceOption_mem_iff]
    rcases typed with typed | typed <;> simp [typed]
  refine ⟨node, ?_, .self⟩
  simp only [writtenTypes, List.mem_append, List.mem_flatMap]
  exact .inl (.inl (.inl (.inl ⟨request, known, inside⟩)))

theorem hasNode_notification {notification : Notification} {node : Node}
    (known : notification ∈ model.notifications) (typed : notification.params = some node) :
    model.HasNode node := by
  have inside : node ∈ notification.types := by
    rw [Notification.types, List.reduceOption_mem_iff]
    simp [typed]
  refine ⟨node, ?_, .self⟩
  simp only [writtenTypes, List.mem_append, List.mem_flatMap]
  exact .inl (.inl (.inl (.inr ⟨notification, known, inside⟩)))

end Model

/-- What is lowered is written in the protocol. -/
theorem Analyzer.hasNode_of_lowered {analyzer : Analyzer} {includesMethods : Bool} {node : Node}
    (step : AnalysisStep.lower (some node) ∈ analyzer.steps includesMethods) :
    analyzer.model.HasNode node := by
  rcases lower_mem_steps_cases step with ⟨declared, generated, record, above, property, own, rfl⟩ |
    ⟨declared, generated, typed⟩ | ⟨request, generated, typed⟩ | ⟨notification, generated, typed⟩
  · have known := Model.mem_structures_of_mem_lineage (mem_structures_iff.mp generated).1 above
    exact Model.hasNode_property known (List.mem_of_mem_filter own)
  · exact Model.hasNode_alias (mem_aliases_iff.mp generated).1 typed
  · exact Model.hasNode_request (List.mem_of_mem_filter generated) typed
  · exact Model.hasNode_notification (List.mem_of_mem_filter generated) typed

end ProtocolCodegen
