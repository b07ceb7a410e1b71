import Mathlib.Logic.Relation
import ProtocolCodegen.Schema.Model

/-!
# Lineage of records

Parents and mixins lend their properties to a record, and have some lent themselves.  The lineage of
a record lists all that lend to it, however indirectly, and the record itself.  None is entered
twice, so there may be cycles, and each stands after those that lend to it.
-/

namespace ProtocolCodegen

/-- The records in the course of listing a lineage. -/
structure Lineage where
  /-- Records so far. -/
  records : List Structure
  /-- Names of the records that were entered. -/
  seen : List String

/-- Adds the lineage of a record, which `ascend` lists. -/
def Lineage.add (ascend : Structure → List String → Lineage) (above : Lineage)
    (lender : Structure) : Lineage where
  records := above.records ++ (ascend lender above.seen).records
  seen := (ascend lender above.seen).seen

namespace Model

/-- The record that a parent or a mixin is.  Only references to declared records lend anything. -/
def lender? (model : Model) : Node → Option Structure
  | .reference _ name => model.declaredStructure? name
  | _ => none

/-- The records that lend their properties to a record directly. -/
def lenders (model : Model) (declared : Structure) : List Structure :=
  (declared.parents ++ declared.mixins).filterMap model.lender?

/-- A record takes over the properties of another one directly. -/
def Inherits (model : Model) (child parent : Structure) : Prop :=
  parent ∈ model.lenders child

/-- The lineage of a record without the names that were entered before; `depth` bounds the records
that are entered within one another. -/
def lineageFrom (model : Model) :
    (depth : Nat) → (declared : Structure) → (seen : List String) → Lineage
  | 0, _, seen => ⟨[], seen⟩
  | depth + 1, declared, seen =>
      if declared.name ∈ seen then
        ⟨[], seen⟩
      else
        let above := (model.lenders declared).foldl (Lineage.add (model.lineageFrom depth))
          ⟨[], declared.name :: seen⟩
        ⟨above.records ++ [declared], above.seen⟩

/-- The lineage of a record. -/
def lineage (model : Model) (declared : Structure) : List Structure :=
  (model.lineageFrom (model.structures.length + 1) declared []).records

theorem mem_records_foldl {ascend : Structure → List String → Lineage} {lenders : List Structure}
    {above : Lineage} {record : Structure}
    (listed : record ∈ (lenders.foldl (Lineage.add ascend) above).records) :
    record ∈ above.records ∨
      ∃ lender ∈ lenders, ∃ seen, record ∈ (ascend lender seen).records := by
  induction lenders generalizing above with
  | nil => exact .inl listed
  | cons first rest induction =>
      rcases induction listed with added | ⟨lender, among, seen, found⟩
      · rcases List.mem_append.mp added with before | new
        · exact .inl before
        · exact .inr ⟨first, List.mem_cons_self, above.seen, new⟩
      · exact .inr ⟨lender, List.mem_cons_of_mem _ among, seen, found⟩

theorem inherits_of_mem_lineageFrom {model : Model} {depth : Nat} {declared record : Structure}
    {seen : List String} (listed : record ∈ (model.lineageFrom depth declared seen).records) :
    Relation.ReflTransGen model.Inherits declared record := by
  induction depth generalizing declared seen with
  | zero => cases listed
  | succ depth induction =>
      rw [lineageFrom] at listed
      split at listed
      · cases listed
      · rcases List.mem_append.mp listed with above | own
        · rcases mem_records_foldl above with none_yet | ⟨lender, lends, seen, found⟩
          · cases none_yet
          · exact .head lends (induction found)
        · rw [List.mem_singleton.mp own]

/-- A lineage only holds records from which properties are taken over. -/
theorem inherits_of_mem_lineage {model : Model} {declared record : Structure}
    (listed : record ∈ model.lineage declared) :
    Relation.ReflTransGen model.Inherits declared record :=
  inherits_of_mem_lineageFrom listed

end Model
end ProtocolCodegen
