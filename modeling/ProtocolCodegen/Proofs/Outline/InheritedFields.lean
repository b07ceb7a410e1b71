import Mathlib
import ProtocolCodegen.Proofs.Outline.Flattening
import ProtocolCodegen.Proofs.Schema.PostOrder

/-!
# Inherited fields

The fields of a class are the fields of all records above its record in depth-first post-order, and
of each name the last one.  Without cycles a record stands after all from which it takes over
properties, so a property that a record declares anew never gives way to an inherited one.
-/

namespace ProtocolCodegen
namespace Analyzer

variable {analyzer : Analyzer}

/-! ## The last field of each name -/

/-- Fields without those that a later field of the same name follows. -/
def lastOfEachName : List Outline.Field → List Outline.Field
  | [] => []
  | field :: rest =>
      if field.name ∈ rest.map (·.name) then lastOfEachName rest
      else field :: lastOfEachName rest

/-- Adding fields keeps the last one of each name, and of the earlier fields those with other
names. -/
theorem addFields_eq (fields added : List Outline.Field) :
    addFields fields added =
      fields.filter (·.name ∉ added.map (·.name)) ++ lastOfEachName added := by
  induction added generalizing fields with
  | nil => simp [addFields, lastOfEachName]
  | cons first rest induction =>
      have kept : (addField fields first).filter (·.name ∉ rest.map (·.name)) =
          fields.filter (·.name ∉ (first :: rest).map (·.name)) ++
            if first.name ∈ rest.map (·.name) then [] else [first] := by
        rw [addField, List.filter_append, List.filter_filter]
        congr 1
        · refine List.filter_congr fun field _ => ?_
          by_cases same : field.name = first.name <;> simp [same]
        · split <;> simp_all
      rw [addFields, List.foldl_cons, ← addFields, induction, kept, lastOfEachName,
        List.append_assoc]
      split <;> rfl

theorem addFields_nil (added : List Outline.Field) : addFields [] added = lastOfEachName added :=
  addFields_eq [] added

theorem mem_lastOfEachName {fields : List Outline.Field} {field : Outline.Field}
    (kept : field ∈ lastOfEachName fields) : field ∈ fields := by
  rw [← addFields_nil] at kept
  exact (mem_addFields kept).resolve_left List.not_mem_nil

theorem nodup_names_lastOfEachName (fields : List Outline.Field) :
    ((lastOfEachName fields).map (·.name)).Nodup := by
  induction fields with
  | nil => exact List.nodup_nil
  | cons field rest induction =>
      rw [lastOfEachName]
      split
      · exact induction
      · rename_i last
        refine List.nodup_cons.mpr ⟨fun repeated => last ?_, induction⟩
        obtain ⟨later, kept, same⟩ := List.mem_map.mp repeated
        exact List.mem_map.mpr ⟨later, mem_lastOfEachName kept, same⟩

/-- A field that later ones follow is only kept if none of these has its name. -/
theorem mem_of_mem_lastOfEachName_append {first second : List Outline.Field}
    {field : Outline.Field} (kept : field ∈ lastOfEachName (first ++ second))
    (declared : field.name ∈ second.map (·.name)) : field ∈ second := by
  rw [← addFields_nil, addFields_append, addFields_eq] at kept
  rcases List.mem_append.mp kept with early | late
  · exact absurd declared (of_decide_eq_true (List.mem_filter.mp early).2)
  · exact mem_lastOfEachName late

/-! ## Fields of a class -/

theorem fields_classOf (analyzer : Analyzer) (declared : Structure) :
    (analyzer.classOf declared).fields =
      lastOfEachName ((analyzer.model.lineage declared).flatMap analyzer.ownFields) := by
  rw [← addFields_nil, ← fields_flattening]
  rfl

theorem mem_names_classOf {declared : Structure} {name : String} :
    name ∈ (analyzer.classOf declared).fields.map (·.name) ↔
      ∃ record ∈ analyzer.model.lineage declared, ∃ property ∈ analyzer.ownProperties record,
        property.name = name :=
  mem_names_flattening

/-- How deep flattening may go has no effect, as long as it may enter every declared record. -/
theorem fields_flatten {declared : Structure} (listed : declared ∈ analyzer.model.structures)
    {depth : Nat} (enough : analyzer.model.structures.length ≤ depth) :
    (analyzer.flatten depth declared []).fields = (analyzer.classOf declared).fields := by
  have left : (remaining (analyzer.model.structures.map (·.name)) []).length ≤ depth := by
    simpa [remaining] using enough
  have order := (Model.ascends_lineageFrom listed left).order
  rw [(follows_flatten depth declared []).fields, addFields_nil, fields_classOf,
    (Model.postOrder_lineage listed).unique order]

/-- Let the records above a record be listed in depth-first post-order, parents before mixins, each
of them once.  The fields of its class are those of their own properties that are not left out, in
that order, and of each name the last one.  So names are distinct and none is lost, and how deep
flattening may go has no effect. -/
theorem classOf_fields_eq (analyzer : Analyzer) {declared : Structure}
    (distinct : (analyzer.model.structures.map (·.name)).Nodup)
    (listed : declared ∈ analyzer.model.structures) :
    ∃ records,
      (∀ other, analyzer.model.PostOrder [] [declared] other ↔ other = records) ∧
      (∀ record, record ∈ records ↔
        Relation.ReflTransGen analyzer.model.Inherits declared record) ∧
      (records.map (·.name)).Nodup ∧
      (analyzer.classOf declared).fields =
        lastOfEachName (records.flatMap fun record =>
          (record.properties.filter fun property => analyzer.admits property.proposed).map
            (analyzer.field record.name)) ∧
      ((analyzer.classOf declared).fields.map (·.name)).Nodup ∧
      (∀ record ∈ records, ∀ property ∈ record.properties,
        analyzer.admits property.proposed = true →
          property.name ∈ (analyzer.classOf declared).fields.map (·.name)) ∧
      ∀ depth, analyzer.model.structures.length ≤ depth →
        (analyzer.flatten depth declared []).fields = (analyzer.classOf declared).fields := by
  have order := Model.postOrder_lineage listed
  refine ⟨analyzer.model.lineage declared, fun other => ⟨order.unique, fun same => same ▸ order⟩,
    fun record => Model.mem_lineage_iff distinct listed, Model.nodup_lineage listed,
    fields_classOf analyzer declared, ?_, ?_, fun depth => fields_flatten listed⟩
  · rw [fields_classOf]
    exact nodup_names_lastOfEachName _
  · intro record above property own admitted
    exact mem_names_classOf.mpr
      ⟨record, above, property, List.mem_filter.mpr ⟨own, admitted⟩, rfl⟩

/-- Two records inherit from one that inherits from the record itself. -/
theorem classOf_fields_eq_diamond :
    let property (name : String) (proposed : Bool) : Property Node :=
      { (default : Property Node) with
        name, proposed
        type := .base (.root "type") "string" }
    let parent (name : String) : Node := .reference (.root "parent") name
    let base : Structure :=
      { (default : Structure) with
        name := "Base"
        properties := [property "id" false, property "kind" false]
        mixins := [parent "Whole"] }
    let left : Structure :=
      { (default : Structure) with
        name := "Left"
        properties := [property "id" false]
        parents := [parent "Base", parent "Missing"] }
    let right : Structure :=
      { (default : Structure) with
        name := "Right"
        properties := [property "draft" true, property "size" false]
        mixins := [parent "Base"] }
    let whole : Structure :=
      { (default : Structure) with
        name := "Whole"
        properties := [property "kind" false]
        parents := [parent "Left"]
        mixins := [parent "Right"] }
    let model : Model := { (default : Model) with structures := [whole, right, left, base] }
    let analyzer := ofModel model .standard false none
    (model.structures.map (·.name)).Nodup ∧ whole ∈ model.structures ∧
      (analyzer.classOf whole).fields.map (fun field => (field.name, field.declaredIn)) =
        [("id", "Left"), ("size", "Right"), ("kind", "Whole")] := by
  intro property parent base left right whole model analyzer
  have distinct : (model.structures.map (·.name)).Nodup := by decide
  have listed : whole ∈ model.structures := List.mem_cons_self
  obtain ⟨records, unique, _, _, fields_eq, _⟩ := classOf_fields_eq analyzer distinct listed
  have aboveLeft : model.PostOrder ["Left", "Whole"] [base] [base] :=
    @Model.PostOrder.enter model _ base [] [] [] (by decide) (.again (by decide) .done) .done
  have aboveRight : model.PostOrder ["Right", "Left", "Base", "Whole"] [base] [] :=
    .again (by decide) .done
  have mixed : model.PostOrder ["Left", "Base", "Whole"] [right] [right] :=
    @Model.PostOrder.enter model _ right [] [] [] (by decide) aboveRight .done
  have aboveWhole : model.PostOrder ["Whole"] [left, right] [base, left, right] :=
    @Model.PostOrder.enter model _ left [right] [base] [right] (by decide) aboveLeft mixed
  have order : model.PostOrder [] [whole] [base, left, right, whole] :=
    @Model.PostOrder.enter model [] whole [] [base, left, right] [] (by decide) aboveWhole .done
  obtain rfl := (unique _).mp order
  exact ⟨distinct, listed, by rw [fields_eq]; cbv⟩

/-- Without cycles, a property that a record declares anew never gives way to the one that it would
have inherited, whatever other ways lead to the inherited one: of its name the class has a single
field, which is declared elsewhere. -/
theorem redeclared_fields_stay (analyzer : Analyzer) {declared child parent : Structure}
    (distinct : (analyzer.model.structures.map (·.name)).Nodup)
    (listed : declared ∈ analyzer.model.structures)
    (acyclic : ∀ record, Relation.ReflTransGen analyzer.model.Inherits declared record →
      ¬Relation.TransGen analyzer.model.Inherits record record)
    (above : Relation.ReflTransGen analyzer.model.Inherits declared child)
    (path : Relation.TransGen analyzer.model.Inherits child parent) {property : Property Node}
    (own : property ∈ child.properties) (admitted : analyzer.admits property.proposed = true) :
    ∃ field ∈ (analyzer.classOf declared).fields, field.name = property.name ∧
      field.declaredIn ≠ parent.name ∧
      ∀ other ∈ (analyzer.classOf declared).fields, other.name = property.name →
        other = field := by
  have child_listed := (Model.mem_lineage_iff distinct listed).mpr above
  have kept : property ∈ analyzer.ownProperties child := List.mem_filter.mpr ⟨own, admitted⟩
  obtain ⟨field, found, named⟩ :=
    List.mem_map.mp (mem_names_classOf.mpr ⟨child, child_listed, property, kept, rfl⟩)
  refine ⟨field, found, named, ?_, ?_⟩
  · obtain ⟨before, after, split, early, late⟩ :=
      Model.exists_split_of_inherits distinct listed acyclic child_listed path
    have redeclared : field.name ∈ (after.flatMap analyzer.ownFields).map (·.name) := by
      refine List.mem_map.mpr ⟨analyzer.field child.name property, ?_, named.symm⟩
      exact List.mem_flatMap.mpr ⟨child, late, List.mem_map_of_mem kept⟩
    rw [fields_classOf, split, List.flatMap_append] at found
    have last := mem_of_mem_lastOfEachName_append found redeclared
    obtain ⟨record, behind, owned⟩ := List.mem_flatMap.mp last
    obtain ⟨_, _, rfl⟩ := List.mem_map.mp owned
    have names_distinct := Model.nodup_lineage listed
    rw [split, List.map_append] at names_distinct
    intro same
    exact (List.nodup_append.mp names_distinct).2.2 parent.name (List.mem_map_of_mem early)
      record.name (List.mem_map_of_mem behind) same.symm
  · intro other among same
    have names_distinct : ((analyzer.classOf declared).fields.map (·.name)).Nodup := by
      rw [fields_classOf]
      exact nodup_names_lastOfEachName _
    exact List.inj_on_of_nodup_map names_distinct among found (same.trans named.symm)

/-- A record extends one that declares a property anew, and after it the one that declared the
property first. -/
theorem redeclared_fields_stay_base_last :
    let property (name : String) : Property Node :=
      { (default : Property Node) with
        name
        type := .base (.root "type") "string" }
    let parent (name : String) : Node := .reference (.root "parent") name
    let base : Structure :=
      { (default : Structure) with
        name := "Base"
        properties := [property "kind"] }
    let derived : Structure :=
      { (default : Structure) with
        name := "Derived"
        properties := [property "kind"]
        parents := [parent "Base"] }
    let whole : Structure :=
      { (default : Structure) with
        name := "Whole"
        parents := [parent "Derived", parent "Base"] }
    let model : Model := { (default : Model) with structures := [whole, derived, base] }
    let analyzer := ofModel model .standard false none
    (model.structures.map (·.name)).Nodup ∧ whole ∈ model.structures ∧
      (∀ record, Relation.ReflTransGen model.Inherits whole record →
        ¬Relation.TransGen model.Inherits record record) ∧
      Relation.ReflTransGen model.Inherits whole derived ∧
      Relation.TransGen model.Inherits derived base ∧
      property "kind" ∈ derived.properties ∧ analyzer.admits (property "kind").proposed = true ∧
      ∃ field ∈ (analyzer.classOf whole).fields, field.name = "kind" ∧
        field.declaredIn ≠ "Base" := by
  intro property parent base derived whole model analyzer
  let rank (record : Structure) : Nat := 2 * record.parents.length + record.properties.length
  have distinct : (model.structures.map (·.name)).Nodup := by decide
  have listed : whole ∈ model.structures := List.mem_cons_self
  have decreases : ∀ child ∈ model.structures, ∀ lender ∈ model.lenders child,
      rank lender < rank child := by decide
  have acyclic (record : Structure) (path : Relation.ReflTransGen model.Inherits whole record) :
      ¬Relation.TransGen model.Inherits record record :=
    Model.acyclic_of_rank decreases (Model.mem_structures_of_path listed path)
  have extended : model.Inherits whole derived := .head _
  have derives : model.Inherits derived base := .head _
  have own : property "kind" ∈ derived.properties := List.mem_cons_self
  have admitted : analyzer.admits (property "kind").proposed = true := rfl
  obtain ⟨field, found, named, elsewhere, _⟩ := redeclared_fields_stay analyzer distinct listed
    acyclic (.single extended) (.single derives) own admitted
  exact ⟨distinct, listed, acyclic, .single extended, .single derives, own, admitted, field,
    found, named, elsewhere⟩

end Analyzer
end ProtocolCodegen
