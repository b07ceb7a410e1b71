import ProtocolCodegen.Proofs.Lowering.Uses
import ProtocolCodegen.Proofs.Outline.Flattening

/-!
# Lowered types of an outline

Every type in an outline is the descriptor of a type of the protocol that the analysis lowered, or
stands in the definition of a composite.
-/

namespace ProtocolCodegen

namespace Analyzer

variable {analyzer : Analyzer}

theorem lower_mem_steps_of_field {declared : Structure} {field : Outline.Field}
    (generated : declared ∈ analyzer.structures)
    (owned : field ∈ (analyzer.classOf declared).fields) (includesMethods : Bool) :
    ∃ node, field.type = some (analyzer.lowerer.descriptor node) ∧
      AnalysisStep.lower (some node) ∈ analyzer.steps includesMethods := by
  obtain ⟨record, above, property, own, rfl⟩ := mem_fields_flattening owned
  refine ⟨property.type, rfl, List.mem_append_left _ (List.mem_append_left _ ?_)⟩
  refine List.mem_flatMap.mpr ⟨declared, generated, ?_⟩
  exact lower_mem_steps_flattening_iff.mpr ⟨record, above, property, own, rfl⟩

theorem lower_mem_steps_of_alias {declared : TypeAlias} (generated : declared ∈ analyzer.aliases)
    (includesMethods : Bool) :
    AnalysisStep.lower declared.type ∈ analyzer.steps includesMethods := by
  refine List.mem_append_left _ (List.mem_append_right _ ?_)
  exact List.mem_map.mpr ⟨declared, generated, rfl⟩

theorem lower_mem_lowerPresent {node : Node} :
    AnalysisStep.lower (some node) ∈ lowerPresent (some node) :=
  List.mem_cons_self

theorem mem_methods_iff {method : Outline.Method} :
    method ∈ analyzer.methods ↔
      (∃ request ∈ analyzer.requests, analyzer.requestOf request = method) ∨
        ∃ notification ∈ analyzer.notifications, analyzer.notificationOf notification = method := by
  rw [methods, (Text.sortedBy_perm _ _).mem_iff, List.mem_append, List.mem_map, List.mem_map]

theorem lower_mem_steps_of_params {method : Outline.Method} {params : Descriptor}
    (generated : method ∈ analyzer.methods) (typed : method.params = some params) :
    ∃ node, params = analyzer.lowerer.descriptor node ∧
      AnalysisStep.lower (some node) ∈ analyzer.steps true := by
  rcases mem_methods_iff.mp generated with ⟨request, listed, rfl⟩ | ⟨notification, listed, rfl⟩
  · obtain ⟨node, present, rfl⟩ := Option.map_eq_some_iff.mp typed
    refine ⟨node, rfl, List.mem_append_right _ (List.mem_append_left _ ?_)⟩
    refine List.mem_flatMap.mpr ⟨request, listed, List.mem_append_left _ ?_⟩
    exact present ▸ lower_mem_lowerPresent
  · obtain ⟨node, present, rfl⟩ := Option.map_eq_some_iff.mp typed
    refine ⟨node, rfl, List.mem_append_right _ (List.mem_append_right _ ?_)⟩
    refine List.mem_flatMap.mpr ⟨notification, listed, ?_⟩
    exact present ▸ lower_mem_lowerPresent

theorem lower_mem_steps_of_result {method : Outline.Method} {result : Descriptor}
    (generated : method ∈ analyzer.methods) (typed : method.result = some result) :
    ∃ node, result = analyzer.lowerer.descriptor node ∧
      AnalysisStep.lower (some node) ∈ analyzer.steps true := by
  rcases mem_methods_iff.mp generated with ⟨request, listed, rfl⟩ | ⟨notification, listed, rfl⟩
  · obtain ⟨node, present, rfl⟩ := Option.map_eq_some_iff.mp typed
    refine ⟨node, rfl, List.mem_append_right _ (List.mem_append_left _ ?_)⟩
    refine List.mem_flatMap.mpr ⟨request, listed, List.mem_append_right _ ?_⟩
    exact present ▸ lower_mem_lowerPresent
  · cases typed

theorem eq_of_lower_mem_lowerPresent {node : Node} {present : Option Node}
    (step : AnalysisStep.lower (some node) ∈ lowerPresent present) : present = some node := by
  cases present with
  | none => cases step
  | some other =>
      have equal := AnalysisStep.lower.inj (List.mem_singleton.mp step)
      exact equal.symm

/-- Lowered are the properties in the lineages of records, the types of aliases, and the parameters
and answers of methods. -/
theorem lower_mem_steps_cases {includesMethods : Bool} {node : Node}
    (step : AnalysisStep.lower (some node) ∈ analyzer.steps includesMethods) :
    (∃ declared ∈ analyzer.structures, ∃ record ∈ analyzer.model.lineage declared,
      ∃ property ∈ analyzer.ownProperties record, node = property.type) ∨
    (∃ declared ∈ analyzer.aliases, declared.type = some node) ∨
    (∃ request ∈ analyzer.requests, request.params = some node ∨ request.result = some node) ∨
    ∃ notification ∈ analyzer.notifications, notification.params = some node := by
  rcases List.mem_append.mp step with declarations | methods
  · rcases List.mem_append.mp declarations with records | aliases
    · obtain ⟨declared, generated, flattened⟩ := List.mem_flatMap.mp records
      obtain ⟨record, above, property, own, equal⟩ :=
        lower_mem_steps_flattening_iff.mp flattened
      exact .inl ⟨declared, generated, record, above, property, own, Option.some.inj equal⟩
    · obtain ⟨declared, generated, equal⟩ := List.mem_map.mp aliases
      exact .inr (.inl ⟨declared, generated, AnalysisStep.lower.inj equal⟩)
  · cases includesMethods with
    | false => cases methods
    | true =>
        rcases List.mem_append.mp methods with requests | notifications
        · obtain ⟨request, generated, lowered⟩ := List.mem_flatMap.mp requests
          have present := (List.mem_append.mp lowered).imp
            eq_of_lower_mem_lowerPresent eq_of_lower_mem_lowerPresent
          exact .inr (.inr (.inl ⟨request, generated, present⟩))
        · obtain ⟨notification, generated, lowered⟩ := List.mem_flatMap.mp notifications
          exact .inr (.inr (.inr
            ⟨notification, generated, eq_of_lower_mem_lowerPresent lowered⟩))

/-- A type in an outline was lowered or stands in a definition. -/
theorem lowered_of_hasType {includesMethods : Bool} {ledger : Ledger} {type : Descriptor}
    (stands : (analyzer.outline includesMethods ledger).HasType type) :
    (∃ node, AnalysisStep.lower node ∈ analyzer.steps includesMethods ∧
      type = analyzer.lowerer.descriptorOf node) ∨
    ∃ entry ∈ ledger.composites, type ∈ entry.2.descriptors := by
  cases stands with
  | field listed owned typed =>
      obtain ⟨declared, generated, rfl⟩ := List.mem_map.mp listed
      obtain ⟨node, typed', step⟩ := lower_mem_steps_of_field generated owned includesMethods
      exact .inl ⟨some node, step, Option.some.inj (typed.symm.trans typed')⟩
  | target listed typed =>
      obtain ⟨declared, generated, rfl⟩ := List.mem_map.mp listed
      have step := lower_mem_steps_of_alias generated includesMethods
      exact .inl ⟨declared.type, step, (Option.some.inj typed).symm⟩
  | params listed typed =>
      cases includesMethods with
      | false => cases listed
      | true =>
          obtain ⟨node, lowered, step⟩ := lower_mem_steps_of_params listed typed
          exact .inl ⟨some node, step, lowered⟩
  | result listed typed =>
      cases includesMethods with
      | false => cases listed
      | true =>
          obtain ⟨node, lowered, step⟩ := lower_mem_steps_of_result listed typed
          exact .inl ⟨some node, step, lowered⟩
  | composite listed inside =>
      exact .inr ⟨_, (Text.sortedBy_perm _ _).mem_iff.mp listed, inside⟩

/-- A composite that an outline uses is used by a type that was lowered or by a definition. -/
theorem used_by_lowered {includesMethods : Bool} {ledger : Ledger} {name : String}
    (uses : (analyzer.outline includesMethods ledger).Uses name) :
    (∃ node, AnalysisStep.lower node ∈ analyzer.steps includesMethods ∧
      (analyzer.lowerer.descriptorOf node).Uses name) ∨
    ∃ entry ∈ ledger.composites, entry.2.Uses name := by
  obtain ⟨type, stands, uses⟩ := uses.exists_type
  rcases lowered_of_hasType stands with ⟨node, step, rfl⟩ | ⟨entry, listed, inside⟩
  · exact .inl ⟨node, step, uses⟩
  · exact .inr ⟨entry, listed, type, inside, uses⟩

end Analyzer
end ProtocolCodegen
