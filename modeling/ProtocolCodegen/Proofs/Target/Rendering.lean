import Mathlib
import ProtocolCodegen.Target.Rendering

/-!
# Outcomes of rendering

Rendering one thing after the other succeeds if each does, and fails as the first that fails.
-/

namespace ProtocolCodegen

theorem exists_mem_of_forall₂ {α β : Type} {related : α → β → Prop} {items : List α}
    {values : List β} (each : List.Forall₂ related items values) {value : β}
    (listed : value ∈ values) : ∃ item ∈ items, related item value := by
  induction each with
  | nil => cases listed
  | cons first _ induction =>
      rcases List.mem_cons.mp listed with rfl | later
      · exact ⟨_, List.mem_cons_self, first⟩
      · obtain ⟨item, among, found⟩ := induction later
        exact ⟨item, List.mem_cons_of_mem _ among, found⟩

theorem mem_ite_filter_iff {α : Type} {asked : Bool} {keeps : α → Bool} {items : List α}
    {item : α} :
    item ∈ (if asked then items.filter keeps else []) ↔
      asked = true ∧ item ∈ items ∧ keeps item = true := by
  cases asked <;> simp

theorem except_bind_eq_ok_iff {ε α β : Type} {first : Except ε α} {next : α → Except ε β}
    {value : β} :
    first >>= next = .ok value ↔ ∃ middle, first = .ok middle ∧ next middle = .ok value := by
  cases first <;> simp [bind, Except.bind]

theorem except_map_eq_ok_iff {ε α β : Type} {first : Except ε α} {change : α → β} {value : β} :
    first.map change = .ok value ↔ ∃ middle, first = .ok middle ∧ change middle = value := by
  cases first <;> simp [Except.map]

namespace Rendering

variable {α β : Type}

/-- Rendering yields something. -/
def Succeeds (rendering : Rendering α) : Prop :=
  ∃ value, rendering.result = .ok value

theorem succeeds_pure (value : α) : (pure value : Rendering α).Succeeds :=
  ⟨value, rfl⟩

theorem Succeeds.bind {rendering : Rendering α} {next : α → Rendering β}
    (succeeds : rendering.Succeeds) (succeedsNext : ∀ value, (next value).Succeeds) :
    (rendering >>= next).Succeeds := by
  obtain ⟨value, found⟩ := succeeds
  obtain ⟨value', found'⟩ := succeedsNext value
  exact ⟨value', by simp [Bind.bind, found, found']⟩

theorem result_bind_eq_error {rendering : Rendering α} {error : RenderError}
    (fails : rendering.result = .error error) (next : α → Rendering β) :
    (rendering >>= next).result = .error error := by
  simp [Bind.bind, fails]

theorem succeeds_mapM {items : List α} {render : α → Rendering β}
    (each : ∀ item ∈ items, (render item).Succeeds) : (items.mapM render).Succeeds := by
  induction items with
  | nil => exact succeeds_pure []
  | cons item rest induction =>
      rw [List.mapM_cons]
      refine (each item List.mem_cons_self).bind fun value => ?_
      refine (induction fun item listed => each item (List.mem_cons_of_mem _ listed)).bind ?_
      exact fun values => succeeds_pure _

/-- Where rendering can fail in one way only, it fails if one item does. -/
theorem result_mapM_eq_error {items : List α} {render : α → Rendering β} {error : RenderError}
    (each : ∀ item ∈ items, (render item).Succeeds ∨ (render item).result = .error error)
    (fails : ∃ item ∈ items, (render item).result = .error error) :
    (items.mapM render).result = .error error := by
  induction items with
  | nil =>
      obtain ⟨item, listed, _⟩ := fails
      cases listed
  | cons item rest induction =>
      rw [List.mapM_cons]
      rcases each item List.mem_cons_self with ⟨value, found⟩ | failsFirst
      · obtain ⟨failing, listed, failure⟩ := fails
        rcases List.mem_cons.mp listed with rfl | listed
        · rw [found] at failure
          cases failure
        · have failsRest := induction
            (fun item listed => each item (List.mem_cons_of_mem _ listed))
            ⟨failing, listed, failure⟩
          simp [Bind.bind, found, failsRest]
      · exact result_bind_eq_error failsFirst _

theorem result_bind_eq_ok_iff {rendering : Rendering α} {next : α → Rendering β} {value : β} :
    (rendering >>= next).result = .ok value ↔
      ∃ middle, rendering.result = .ok middle ∧ (next middle).result = .ok value := by
  cases found : rendering.result with
  | error => simp [Bind.bind, found]
  | ok middle => simp [Bind.bind, found]

theorem result_mapM_eq_ok_iff {items : List α} {render : α → Rendering β} {values : List β} :
    (items.mapM render).result = .ok values ↔
      List.Forall₂ (fun item value => (render item).result = .ok value) items values := by
  induction items generalizing values with
  | nil => cases values <;> simp [Pure.pure]
  | cons item rest induction =>
      rw [List.mapM_cons, result_bind_eq_ok_iff, List.forall₂_cons_left_iff]
      constructor
      · rintro ⟨value, found, later⟩
        obtain ⟨others, foundRest, same⟩ := result_bind_eq_ok_iff.mp later
        cases same
        exact ⟨value, others, found, induction.mp foundRest, rfl⟩
      · rintro ⟨value, others, found, foundRest, rfl⟩
        exact ⟨value, found, result_bind_eq_ok_iff.mpr ⟨others, induction.mpr foundRest, rfl⟩⟩

/-- Where it does not depend on a value whether rendering goes on, rendering succeeds if the value
is found and it goes on. -/
theorem succeeds_bind_iff {rendering : Rendering α} {next : α → Rendering β} {proceeds : Prop}
    (follows : ∀ value, (next value).Succeeds ↔ proceeds) :
    (rendering >>= next).Succeeds ↔ rendering.Succeeds ∧ proceeds := by
  constructor
  · rintro ⟨value, rendered⟩
    obtain ⟨middle, found, later⟩ := result_bind_eq_ok_iff.mp rendered
    exact ⟨⟨middle, found⟩, (follows middle).mp ⟨value, later⟩⟩
  · rintro ⟨succeeds, holds⟩
    exact succeeds.bind fun value => (follows value).mpr holds

theorem succeeds_bind_pure_iff {rendering : Rendering α} {write : α → β} :
    (rendering >>= fun value => pure (write value)).Succeeds ↔ rendering.Succeeds :=
  (succeeds_bind_iff fun value => iff_true_intro (succeeds_pure (write value))).trans
    (and_iff_left trivial)

theorem exists_of_mem_of_result_mapM {items : List α} {render : α → Rendering β} {values : List β}
    (rendered : (items.mapM render).result = .ok values) {value : β} (listed : value ∈ values) :
    ∃ item ∈ items, (render item).result = .ok value :=
  exists_mem_of_forall₂ (result_mapM_eq_ok_iff.mp rendered) listed

theorem exists_mem_of_result_mapM {items : List α} {render : α → Rendering β} {values : List β}
    (rendered : (items.mapM render).result = .ok values) {item : α} (listed : item ∈ items) :
    ∃ value ∈ values, (render item).result = .ok value :=
  exists_mem_of_forall₂ (result_mapM_eq_ok_iff.mp rendered).flip listed

theorem mem_result_mapM_iff {items : List α} {render : α → Rendering β} {values : List β}
    (rendered : (items.mapM render).result = .ok values) {value : β} :
    value ∈ values ↔ ∃ item ∈ items, (render item).result = .ok value := by
  refine ⟨exists_of_mem_of_result_mapM rendered, ?_⟩
  rintro ⟨item, listed, written⟩
  obtain ⟨own, among, written'⟩ := exists_mem_of_result_mapM rendered listed
  rwa [Except.ok.inj (written.symm.trans written')]

theorem succeeds_mapM_iff {items : List α} {render : α → Rendering β} :
    (items.mapM render).Succeeds ↔ ∀ item ∈ items, (render item).Succeeds := by
  refine ⟨?_, succeeds_mapM⟩
  rintro ⟨values, rendered⟩ item listed
  obtain ⟨value, _, written⟩ := exists_mem_of_result_mapM rendered listed
  exact ⟨value, written⟩

/-! ## Imports -/

theorem imports_bind_eq {rendering : Rendering α} {value : α}
    (found : rendering.result = .ok value) (next : α → Rendering β) :
    (rendering >>= next).imports = rendering.imports ++ (next value).imports := by
  simp [Bind.bind, found]

theorem mem_imports_mapM_iff {items : List α} {render : α → Rendering β} {values : List β}
    (rendered : (items.mapM render).result = .ok values) {name : String} :
    name ∈ (items.mapM render).imports ↔ ∃ item ∈ items, name ∈ (render item).imports := by
  induction items generalizing values with
  | nil => simp [Pure.pure]
  | cons item rest induction =>
      rw [List.mapM_cons] at rendered ⊢
      obtain ⟨value, found, rendered⟩ := result_bind_eq_ok_iff.mp rendered
      obtain ⟨others, foundRest, _⟩ := result_bind_eq_ok_iff.mp rendered
      rw [imports_bind_eq found, List.mem_append, imports_bind_eq foundRest, List.mem_append,
        induction foundRest, List.exists_mem_cons_iff]
      simp [Pure.pure]

theorem imports_bind_eq_nil {rendering : Rendering α} {next : α → Rendering β}
    (first : rendering.imports = []) (later : ∀ value, (next value).imports = []) :
    (rendering >>= next).imports = [] := by
  cases found : rendering.result with
  | error => simp [Bind.bind, found, first]
  | ok value => simp [Bind.bind, found, first, later]

theorem imports_mapM_eq_nil {items : List α} {render : α → Rendering β}
    (each : ∀ item, (render item).imports = []) : (items.mapM render).imports = [] := by
  induction items with
  | nil => rfl
  | cons item rest induction =>
      rw [List.mapM_cons]
      exact imports_bind_eq_nil (each item) fun value =>
        imports_bind_eq_nil induction fun values => rfl

end Rendering
end ProtocolCodegen
