import Mathlib.Data.List.Induction
import ProtocolCodegen.Outline.Analysis
import ProtocolCodegen.Proofs.Schema.Lineage

/-!
# Flattening along a lineage

Flattening a record gives the properties of its lineage, those of one record after those of the
other, and of every name the last one.  Every property on the way is lowered, also where its field
gives way to a later one.
-/

namespace ProtocolCodegen

namespace Analyzer

/-! ## Adding fields -/

theorem mem_addField {fields : List Outline.Field} {added field : Outline.Field}
    (listed : field ∈ addField fields added) : field ∈ fields ∨ field = added := by
  rcases List.mem_append.mp listed with old | new
  · exact .inl (List.mem_filter.mp old).1
  · exact .inr (List.mem_singleton.mp new)

theorem mem_addFields {fields added : List Outline.Field} {field : Outline.Field}
    (listed : field ∈ addFields fields added) : field ∈ fields ∨ field ∈ added := by
  induction added generalizing fields with
  | nil => exact .inl listed
  | cons first rest induction =>
      rcases induction listed with earlier | later
      · rcases mem_addField earlier with old | rfl
        · exact .inl old
        · exact .inr List.mem_cons_self
      · exact .inr (List.mem_cons_of_mem _ later)

theorem mem_names_addField {fields : List Outline.Field} {added : Outline.Field} {name : String} :
    name ∈ (addField fields added).map (·.name) ↔
      name ∈ fields.map (·.name) ∨ name = added.name := by
  by_cases same : name = added.name
  · simp [addField, same]
  · simp only [addField, List.map_append, List.mem_append, List.mem_map, List.mem_filter]
    grind

/-- A field only gives way to one of its name, so that no name is lost. -/
theorem mem_names_addFields {fields added : List Outline.Field} {name : String} :
    name ∈ (addFields fields added).map (·.name) ↔
      name ∈ fields.map (·.name) ∨ name ∈ added.map (·.name) := by
  induction added generalizing fields with
  | nil => simp [addFields]
  | cons first rest induction =>
      rw [addFields, List.foldl_cons, ← addFields, induction, mem_names_addField, or_assoc,
        List.map_cons, List.mem_cons]

theorem filter_addField (keeps : String → Bool) (fields : List Outline.Field)
    (added : Outline.Field) :
    (addField fields added).filter (keeps ·.name) =
      if keeps added.name then addField (fields.filter (keeps ·.name)) added
      else fields.filter (keeps ·.name) := by
  rw [addField, List.filter_append, List.filter_filter]
  split
  · rename_i kept
    simp [addField, kept, List.filter_filter, Bool.and_comm]
  · rename_i dropped
    have others (field : Outline.Field) :
        (keeps field.name && field.name != added.name) = keeps field.name := by
      by_cases same : field.name = added.name
      · simp [same, dropped]
      · simp [same]
    simp [dropped, others]

/-- Fields of some names can be left out before or after others are added. -/
theorem filter_addFields (keeps : String → Bool) (fields added : List Outline.Field) :
    (addFields fields added).filter (keeps ·.name) =
      addFields (fields.filter (keeps ·.name)) (added.filter (keeps ·.name)) := by
  induction added generalizing fields with
  | nil => rfl
  | cons first rest induction =>
      rw [addFields, List.foldl_cons, ← addFields, induction, filter_addField, List.filter_cons]
      split
      · rfl
      · rfl

theorem addFields_append (fields first second : List Outline.Field) :
    addFields fields (first ++ second) = addFields (addFields fields first) second :=
  List.foldl_append

theorem addFields_concat (fields added : List Outline.Field) (last : Outline.Field) :
    addFields fields (added ++ [last]) =
      (addFields fields added).filter (·.name != last.name) ++ [last] := by
  rw [addFields_append]
  rfl

/-- To add what is left of some fields is to add them. -/
theorem addFields_addFields (fields added : List Outline.Field) :
    addFields fields (addFields [] added) = addFields fields added := by
  induction added using List.reverseRecOn with
  | nil => rfl
  | append_singleton added last induction =>
      let others (name : String) : Bool := name != last.name
      calc
        addFields fields (addFields [] (added ++ [last]))
        _ = (addFields fields ((addFields [] added).filter (others ·.name))).filter
              (others ·.name) ++ [last] := by
            rw [addFields_concat, addFields_concat]
        _ = (addFields fields (addFields [] added)).filter (others ·.name) ++ [last] := by
            simp only [filter_addFields, List.filter_filter, Bool.and_self]
        _ = addFields fields (added ++ [last]) := by
            rw [induction, addFields_concat]

/-! ## Following a lineage -/

variable {analyzer : Analyzer}

/-- The properties of a record that are not left out. -/
def ownProperties (analyzer : Analyzer) (record : Structure) : List (Property Node) :=
  record.properties.filter fun property => analyzer.admits property.proposed

/-- The fields of the properties of a record that are not left out. -/
def ownFields (analyzer : Analyzer) (record : Structure) : List Outline.Field :=
  (analyzer.ownProperties record).map (analyzer.field record.name)

/-- What was flattened is what the records of a lineage declare. -/
structure Follows (analyzer : Analyzer) (state : Flattening) (lineage : Lineage) : Prop where
  fields : state.fields = addFields [] (lineage.records.flatMap analyzer.ownFields)
  seen : state.seen = lineage.seen
  lowered : ∀ node, AnalysisStep.lower node ∈ state.steps ↔
    ∃ record ∈ lineage.records, ∃ property ∈ analyzer.ownProperties record,
      node = some property.type

theorem follows_nil (seen : List String) : analyzer.Follows ⟨[], seen, []⟩ ⟨[], seen⟩ where
  fields := rfl
  seen := rfl
  lowered := by simp

theorem Follows.inherit_nothing {flatten : Structure → List String → Flattening} {child : String}
    {state : Flattening} {lineage : Lineage} (follows : analyzer.Follows state lineage)
    {parent : Node} (nothing : analyzer.model.lender? parent = none) :
    analyzer.Follows (analyzer.inherit flatten child state parent) lineage := by
  cases parent with
  | reference source name =>
      have unknown : analyzer.model.declaredStructure? name = none := nothing
      rw [inherit, unknown]
      exact ⟨follows.fields, follows.seen, fun node => by simpa using follows.lowered node⟩
  | _ => exact follows

theorem Follows.inherit_lender {flatten : Structure → List String → Flattening} {child : String}
    {ascend : Structure → List String → Lineage}
    (each : ∀ lender seen, analyzer.Follows (flatten lender seen) (ascend lender seen))
    {state : Flattening} {lineage : Lineage} (follows : analyzer.Follows state lineage)
    {parent : Node} {lender : Structure} (lends : analyzer.model.lender? parent = some lender) :
    analyzer.Follows (analyzer.inherit flatten child state parent) (lineage.add ascend lender) := by
  cases parent with
  | reference source name =>
      have known : analyzer.model.declaredStructure? name = some lender := lends
      have inherited := each lender state.seen
      have inherit_eq : analyzer.inherit flatten child state (.reference source name) =
          { fields := addFields state.fields (flatten lender state.seen).fields
            seen := (flatten lender state.seen).seen
            steps := state.steps ++ (flatten lender state.seen).steps } := by
        rw [inherit, known]
      rw [inherit_eq, Lineage.add, ← follows.seen]
      refine ⟨?_, inherited.seen, fun node => ?_⟩
      · rw [List.flatMap_append, addFields_append, ← follows.fields, inherited.fields,
          addFields_addFields]
      · simp only [List.mem_append, follows.lowered, inherited.lowered, or_and_right, exists_or]
  | _ => cases lends

theorem Follows.foldl_inherit {flatten : Structure → List String → Flattening}
    {ascend : Structure → List String → Lineage}
    (each : ∀ lender seen, analyzer.Follows (flatten lender seen) (ascend lender seen))
    (child : String) (parents : List Node) {state : Flattening} {lineage : Lineage}
    (follows : analyzer.Follows state lineage) :
    analyzer.Follows (parents.foldl (analyzer.inherit flatten child) state)
      ((parents.filterMap analyzer.model.lender?).foldl (Lineage.add ascend) lineage) := by
  induction parents generalizing state lineage with
  | nil => exact follows
  | cons parent rest induction =>
      cases lends : analyzer.model.lender? parent with
      | none =>
          rw [List.filterMap_cons_none lends]
          exact induction (follows.inherit_nothing lends)
      | some lender =>
          rw [List.filterMap_cons_some lends]
          exact induction (follows.inherit_lender each lends)

theorem follows_flatten (depth : Nat) (declared : Structure) (seen : List String) :
    analyzer.Follows (analyzer.flatten depth declared seen)
      (analyzer.model.lineageFrom depth declared seen) := by
  induction depth generalizing declared seen with
  | zero => exact follows_nil seen
  | succ depth induction =>
      rw [flatten, Model.lineageFrom]
      split
      · exact follows_nil seen
      · have above := (follows_nil (declared.name :: seen)).foldl_inherit induction declared.name
          (declared.parents ++ declared.mixins)
        rw [← Model.lenders] at above
        refine ⟨?_, above.seen, fun node => ?_⟩
        · simp only [List.flatMap_append, List.flatMap_singleton, addFields_append]
          rw [above.fields]
          rfl
        · simp only [List.mem_append, above.lowered, or_and_right, exists_or, List.mem_map,
            List.mem_singleton, exists_eq_left, AnalysisStep.lower.injEq, eq_comm (a := node)]
          rfl

/-- The fields of a record are those that its lineage declares, and of every name the last one. -/
theorem fields_flattening (analyzer : Analyzer) (declared : Structure) :
    (analyzer.flattening declared).fields =
      addFields [] ((analyzer.model.lineage declared).flatMap analyzer.ownFields) :=
  (follows_flatten _ declared []).fields

/-- Flattening a record lowers the types of all properties that its lineage declares. -/
theorem lower_mem_steps_flattening_iff {declared : Structure} {node : Option Node} :
    AnalysisStep.lower node ∈ (analyzer.flattening declared).steps ↔
      ∃ record ∈ analyzer.model.lineage declared, ∃ property ∈ analyzer.ownProperties record,
        node = some property.type :=
  (follows_flatten _ declared []).lowered node

/-- Every field of a class is the field of a property in the lineage of its record. -/
theorem mem_fields_flattening {declared : Structure} {field : Outline.Field}
    (owned : field ∈ (analyzer.flattening declared).fields) :
    ∃ record ∈ analyzer.model.lineage declared, ∃ property ∈ analyzer.ownProperties record,
      field = analyzer.field record.name property := by
  rw [fields_flattening] at owned
  have declares := (mem_addFields owned).resolve_left List.not_mem_nil
  obtain ⟨record, above, own⟩ := List.mem_flatMap.mp declares
  obtain ⟨property, kept, rfl⟩ := List.mem_map.mp own
  exact ⟨record, above, property, kept, rfl⟩

/-- A class has a field of every name that the lineage of its record declares. -/
theorem mem_names_flattening {declared : Structure} {name : String} :
    name ∈ (analyzer.flattening declared).fields.map (·.name) ↔
      ∃ record ∈ analyzer.model.lineage declared, ∃ property ∈ analyzer.ownProperties record,
        property.name = name := by
  rw [fields_flattening, mem_names_addFields]
  simp [ownFields, field, and_assoc]

end Analyzer
end ProtocolCodegen
