import ProtocolCodegen.Proofs.Schema.Declarations
import ProtocolCodegen.Proofs.Schema.Lineage
import ProtocolCodegen.Proofs.Schema.References

/-!
# Closures

The closure of a selection is the least closed one around it.  It grows when what is proposed is
included, and it holds the lineages of its records, as long as none of these are left out.
-/

namespace ProtocolCodegen

namespace Model

variable {model : Model} {includesProposed : Bool} {names : List String}

theorem isLeast_closure (model : Model) (includesProposed : Bool) (names : List String) :
    IsLeast (model.closedSelections includesProposed [names])
      {name | name ∈ model.closure includesProposed names} :=
  model.isLeast_visitedAfter includesProposed [names]

theorem isClosed_closure (model : Model) (includesProposed : Bool) (names : List String) :
    model.IsClosed includesProposed {name | name ∈ model.closure includesProposed names} :=
  (model.isLeast_closure includesProposed names).1.2

theorem Leads.mono {source target : String} (stable : model.Leads false source target) :
    model.Leads true source target := by
  have admitted : model.Admits true target := fun _ => rfl
  cases stable with
  | ofProperty counts listed _ mentioned _ =>
      exact .ofProperty counts listed (fun _ => rfl) (Node.referenceSet_mono mentioned) admitted
  | ofParent counts listed mentioned _ =>
      exact .ofParent counts listed (Node.referenceSet_mono mentioned) admitted
  | ofMixin counts listed mentioned _ =>
      exact .ofMixin counts listed (Node.referenceSet_mono mentioned) admitted
  | ofAlias unrecorded counts mentioned _ =>
      exact .ofAlias unrecorded counts (Node.referenceSet_mono mentioned) admitted

/-- Including what is proposed only adds to the closure of a selection. -/
theorem closure_mono (model : Model) (names : List String) :
    model.closure false names ⊆ model.closure true names := by
  obtain ⟨⟨holds, closed⟩, _⟩ := model.isLeast_closure true names
  have stable : {name | name ∈ model.closure true names} ∈ model.closedSelections false [names] :=
    ⟨holds, fun source member target leads => closed source member target leads.mono⟩
  exact fun name listed => (model.isLeast_closure false names).2 stable listed

/-! ## Lineages in closures -/

theorem isLastNamed_of_inherits {child parent : Structure}
    (inherits : model.Inherits child parent) :
    IsLastNamed Structure.name parent model.structures := by
  obtain ⟨node, _, lends⟩ := List.mem_filterMap.mp inherits
  cases node with
  | reference source name => exact (declaredStructure?_eq_some_iff.mp lends).2
  | _ => cases lends

/-- A record leads to those from which it takes over properties. -/
theorem leads_of_inherits {child parent : Structure}
    (counts : IsLastNamed Structure.name child model.structures)
    (inherits : model.Inherits child parent)
    (admitted : model.Admits includesProposed parent.name) :
    model.Leads includesProposed child.name parent.name := by
  obtain ⟨node, listed, lends⟩ := List.mem_filterMap.mp inherits
  cases node with
  | reference source name =>
      obtain ⟨rfl, _⟩ := declaredStructure?_eq_some_iff.mp lends
      have mentioned : parent.name ∈
          Node.referenceSet includesProposed (some (.reference source parent.name)) :=
        Node.mem_referenceSet_iff.mpr ⟨_, rfl, List.mem_cons_self⟩
      rcases List.mem_append.mp listed with extended | mixed
      · exact .ofParent counts extended mentioned admitted
      · exact .ofMixin counts mixed mentioned admitted
  | _ => cases lends

/-- A closed selection holds the lineage of each of its records, unless a record inherits from one
that is left out. -/
theorem mem_of_mem_lineage {selection : Set String}
    (closed : model.IsClosed includesProposed selection)
    (admitted : ∀ child ∈ model.structures, ∀ parent, model.Inherits child parent →
      model.Admits includesProposed parent.name)
    {declared record : Structure} (counts : IsLastNamed Structure.name declared model.structures)
    (selected : declared.name ∈ selection) (above : record ∈ model.lineage declared) :
    record.name ∈ selection ∧ IsLastNamed Structure.name record model.structures := by
  have path := inherits_of_mem_lineage above
  clear above
  induction path with
  | refl => exact ⟨selected, counts⟩
  | @tail child parent _ inherits induction =>
      obtain ⟨childSelected, childCounts⟩ := induction
      have leads := leads_of_inherits childCounts inherits
        (admitted child childCounts.mem parent inherits)
      exact ⟨closed child.name childSelected parent.name leads, isLastNamed_of_inherits inherits⟩

end Model
end ProtocolCodegen
