import Mathlib.Data.List.Nodup
import ProtocolCodegen.Proofs.Schema.Reachability

/-!
# Declarations

The names of a protocol's records, enumerations and aliases.  Where they are distinct, every
declaration counts, and whether a name is proposed is said by its only declaration.
-/

namespace ProtocolCodegen

namespace Dictionary

variable {κ α : Type} [DecidableEq κ] {key : κ} {value : α}

theorem mem_of_get?_putAll {entries : List (κ × α)} {dictionary : Dictionary κ α}
    (found : (dictionary.putAll entries).get? key = some value) :
    (key, value) ∈ entries ∨ dictionary.get? key = some value := by
  induction entries generalizing dictionary with
  | nil => exact .inr found
  | cons entry rest induction =>
      rcases induction found with later | before
      · exact .inl (List.mem_cons_of_mem _ later)
      · rw [get?_put] at before
        split at before
        · rename_i same
          cases before
          exact .inl (same ▸ List.mem_cons_self)
        · exact .inr before

theorem mem_of_get?_ofList {entries : List (κ × α)}
    (found : (ofList entries).get? key = some value) : (key, value) ∈ entries :=
  (mem_of_get?_putAll found).resolve_right nofun

theorem get?_putAll_ne_none {entries : List (κ × α)} {dictionary : Dictionary κ α}
    (listed : key ∈ entries.map (·.1) ∨ dictionary.get? key ≠ none) :
    (dictionary.putAll entries).get? key ≠ none := by
  induction entries generalizing dictionary with
  | nil => exact listed.resolve_left List.not_mem_nil
  | cons entry rest induction =>
      apply induction
      rcases listed with listed | known
      · rcases List.mem_cons.mp listed with rfl | later
        · right
          simp [get?_put]
        · exact .inl later
      · right
        rw [get?_put]
        split
        · exact Option.some_ne_none _
        · exact known

theorem not_mem_of_get?_ofList {entries : List (κ × α)}
    (missing : (ofList entries).get? key = none) : key ∉ entries.map (·.1) :=
  fun listed => get?_putAll_ne_none (.inl listed) missing

end Dictionary

theorem IsLastNamed.mem {α : Type} {name : α → String} {item : α} {items : List α}
    (counts : IsLastNamed name item items) : item ∈ items := by
  obtain ⟨before, after, rfl, _⟩ := counts
  exact List.mem_append_right _ List.mem_cons_self

/-- Where names are distinct, every item is the last one of its name. -/
theorem isLastNamed_of_nodup {α : Type} {name : α → String} {items : List α} {item : α}
    (distinct : (items.map name).Nodup) (listed : item ∈ items) :
    IsLastNamed name item items := by
  obtain ⟨before, after, rfl⟩ := List.append_of_mem listed
  refine ⟨before, after, rfl, ?_⟩
  intro later behind equal
  have distinct : (name item :: after.map name).Nodup := by
    rw [List.map_append, List.map_cons] at distinct
    exact (List.nodup_append.mp distinct).2.1
  exact (List.nodup_cons.mp distinct).1 (equal ▸ List.mem_map_of_mem behind)

namespace Model

/-- The names of all declarations and whether they are proposed. -/
def declarations (model : Model) : List (String × Bool) :=
  model.structures.map (fun declared => (declared.name, declared.proposed)) ++
    model.enumerations.map (fun declared => (declared.name, declared.proposed)) ++
    model.aliases.map (fun declared => (declared.name, declared.proposed))

/-- The names of all declarations. -/
def declaredNames (model : Model) : List String :=
  model.declarations.map (·.1)

theorem declaredNames_eq (model : Model) :
    model.declaredNames = model.structures.map (·.name) ++ model.enumerations.map (·.name) ++
      model.aliases.map (·.name) := by
  simp only [declaredNames, declarations, List.map_append, List.map_map]
  rfl

theorem mem_declarations_of_flag {model : Model} {name : String} {proposed : Bool}
    (flag : model.proposedFlags.get? name = some proposed) :
    (name, proposed) ∈ model.declarations :=
  Dictionary.mem_of_get?_ofList flag

theorem not_mem_declaredNames_of_no_flag {model : Model} {name : String}
    (missing : model.proposedFlags.get? name = none) : name ∉ model.declaredNames :=
  Dictionary.not_mem_of_get?_ofList missing

theorem isProposed_iff {model : Model} {name : String} :
    model.isProposed name = true ↔ model.proposedFlags.get? name = some true := by
  rw [isProposed]
  cases model.proposedFlags.get? name <;> simp

section Distinct

variable {model : Model} (distinct : model.declaredNames.Nodup)

include distinct

theorem nodup_structures : (model.structures.map (·.name)).Nodup := by
  rw [declaredNames_eq] at distinct
  exact (List.nodup_append.mp (List.nodup_append.mp distinct).1).1

theorem nodup_aliases : (model.aliases.map (·.name)).Nodup := by
  rw [declaredNames_eq] at distinct
  exact (List.nodup_append.mp distinct).2.1

theorem structure_name_ne_alias_name {record : Structure} {declared : TypeAlias}
    (listed : record ∈ model.structures) (listed' : declared ∈ model.aliases) :
    record.name ≠ declared.name := by
  rw [declaredNames_eq] at distinct
  exact (List.nodup_append.mp distinct).2.2 record.name
    (List.mem_append_left _ (List.mem_map_of_mem listed)) declared.name
    (List.mem_map_of_mem listed')

/-- A record is proposed if its name is. -/
theorem proposed_of_isProposed {record : Structure} (listed : record ∈ model.structures)
    (proposed : model.isProposed record.name = true) : record.proposed = true := by
  have flagged := mem_declarations_of_flag (isProposed_iff.mp proposed)
  have declared : (record.name, record.proposed) ∈ model.declarations :=
    List.mem_append_left _ (List.mem_append_left _ (List.mem_map.mpr ⟨record, listed, rfl⟩))
  exact congrArg Prod.snd (List.inj_on_of_nodup_map distinct declared flagged rfl)

end Distinct

end Model
end ProtocolCodegen
