import Mathlib
import ProtocolCodegen.Proofs.Target.Proto.FieldTypes
import ProtocolCodegen.Proofs.Target.Proto.Spelling

/-!
# Proto: types without an end

Resolving stops where aliases come back to themselves, but it begins anew for the type within an
optional one.  So the spelling of a type has no end exactly if an optional type leads back to itself
on its way, or, in a list or a dictionary, on the way of an argument.
-/

namespace ProtocolCodegen

/-- Among finitely many points that all lead to another one, some way comes back to itself. -/
theorem exists_cycle_of_forall_step {α : Type} [DecidableEq α] {step : α → α → Prop}
    {points : List α} (leads : ∀ point ∈ points, ∃ next ∈ points, step point next) {first : α}
    (listed : first ∈ points) :
    ∃ point, Relation.ReflTransGen step first point ∧ Relation.TransGen step point point := by
  have : Nonempty α := ⟨first⟩
  choose! next stays steps using leads
  have listedAfter (count : ℕ) : next^[count] first ∈ points := by
    induction count with
    | zero => exact listed
    | succ count induction =>
        rw [Function.iterate_succ_apply']
        exact stays _ induction
  have stepAfter (count : ℕ) : step (next^[count] first) (next^[count + 1] first) := by
    rw [Function.iterate_succ_apply']
    exact steps _ (listedAfter count)
  have leadsTo {count count' : ℕ} (less : count < count') :
      Relation.TransGen step (next^[count] first) (next^[count'] first) :=
    (transGen_of_succ_of_lt (fun count count' => step (next^[count] first) (next^[count'] first))
      (fun count _ => stepAfter count) less).lift _ fun _ _ => id
  have cycle {count count' : ℕ} (less : count < count')
      (same : next^[count] first = next^[count'] first) :
      ∃ point, Relation.ReflTransGen step first point ∧ Relation.TransGen step point point := by
    refine ⟨next^[count'] first, ?_, ?_⟩
    · exact (leadsTo (Nat.zero_lt_of_lt less)).to_reflTransGen
    · simpa only [same] using leadsTo less
  obtain ⟨count, count', different, same⟩ :=
    Finite.exists_ne_map_eq_of_infinite fun count : ℕ =>
      (⟨next^[count] first, List.mem_toFinset.mpr (listedAfter count)⟩ : points.toFinset)
  have same := congrArg Subtype.val same
  rcases Nat.lt_or_gt_of_ne different with less | less
  · exact cycle less same
  · exact cycle less same.symm

namespace Proto

variable {aliases : AliasTable} {descriptor next inner : Descriptor} {position : Position}

/-! ## Ways through aliases and optional types -/

theorem unwraps_rightUnique : Relator.RightUnique (Unwraps aliases) := by
  intro descriptor next next' step step'
  cases step with
  | target follows =>
      cases step' with
      | target follows' => exact follows_rightUnique follows follows'
      | present optional first => simp [(kind_of_follows follows).1] at optional
  | present optional first =>
      cases step' with
      | target follows' => simp [(kind_of_follows follows').1] at optional
      | present optional' first' => exact Option.some.inj (first.symm.trans first')

theorem unwraps_of_follows (follows : Relation.ReflTransGen (Follows aliases) descriptor next) :
    Relation.ReflTransGen (Unwraps aliases) descriptor next :=
  Relation.ReflTransGen.mono (fun _ _ => .target) _ _ follows

/-- An optional type on the way of a type leads back to itself. -/
def IsEndless (aliases : AliasTable) (descriptor : Descriptor) : Prop :=
  ∃ optional : Descriptor, optional.kind = .optional ∧
    Relation.ReflTransGen (Unwraps aliases) descriptor optional ∧
    Relation.TransGen (Unwraps aliases) optional optional

/-- On the way of a type there is a list or a dictionary with an endless argument. -/
def HoldsEndless (aliases : AliasTable) (descriptor : Descriptor) : Prop :=
  ∃ collection : Descriptor, (collection.kind = .array ∨ collection.kind = .map) ∧
    Relation.ReflTransGen (Unwraps aliases) descriptor collection ∧
    ∃ argument ∈ collection.arguments, IsEndless aliases argument

theorem IsEndless.unwraps (endless : IsEndless aliases descriptor)
    (step : Unwraps aliases descriptor next) : IsEndless aliases next := by
  obtain ⟨optional, kind, leads, cycle⟩ := endless
  rcases leads.cases_head with rfl | ⟨second, step', rest⟩
  · obtain ⟨second, step', back⟩ := Relation.TransGen.head'_iff.mp cycle
    obtain rfl := unwraps_rightUnique step step'
    exact ⟨descriptor, kind, back, cycle⟩
  · obtain rfl := unwraps_rightUnique step step'
    exact ⟨optional, kind, rest, cycle⟩

theorem HoldsEndless.of_leads (leads : Relation.ReflTransGen (Unwraps aliases) descriptor next)
    (holds : HoldsEndless aliases next) : HoldsEndless aliases descriptor := by
  obtain ⟨collection, kind, rest, endless⟩ := holds
  exact ⟨collection, kind, leads.trans rest, endless⟩

/-- A descriptor stands for an optional type of another one. -/
def Presents (aliases : AliasTable) (descriptor inner : Descriptor) : Prop :=
  ∃ optional, resolve aliases descriptor = some optional ∧ optional.kind = .optional ∧
    optional.arguments.head? = some inner

theorem Presents.isArgument (presents : Presents aliases descriptor inner) :
    IsArgument aliases descriptor inner := by
  obtain ⟨optional, found, _, first⟩ := presents
  exact ⟨optional, found, List.mem_of_head? first⟩

theorem Presents.exists_optional (presents : Presents aliases descriptor inner) :
    ∃ optional : Descriptor, optional.kind = .optional ∧
      Relation.ReflTransGen (Unwraps aliases) descriptor optional ∧
      Unwraps aliases optional inner := by
  obtain ⟨optional, found, kind, first⟩ := presents
  exact ⟨optional, kind, unwraps_of_follows (follows_of_resolve found).1, .present kind first⟩

theorem Presents.leads (presents : Presents aliases descriptor inner) :
    Relation.TransGen (Unwraps aliases) descriptor inner := by
  obtain ⟨optional, _, leads, step⟩ := presents.exists_optional
  exact .tail' leads step

/-- Wherever a way of aliases ends at an endless type, that type is optional. -/
theorem IsEndless.exists_presents (endless : IsEndless aliases descriptor) :
    ∃ inner, Presents aliases descriptor inner ∧ IsEndless aliases inner := by
  obtain ⟨optional, kind, leads, cycle⟩ := endless
  induction leads using Relation.ReflTransGen.head_induction_on with
  | refl =>
      obtain ⟨inner, step, back⟩ := Relation.TransGen.head'_iff.mp cycle
      cases step with
      | target follows => simp [(kind_of_follows follows).1] at kind
      | present _ first =>
          refine ⟨inner, ⟨optional, ?_, kind, first⟩, optional, kind, back, cycle⟩
          exact resolve_of_unaliased (aliasOf?_of_kind (by simp [kind]))
  | @head descriptor next step rest induction =>
      cases step with
      | target follows =>
          obtain ⟨inner, ⟨resolved, found, present⟩, endless⟩ := induction
          exact ⟨inner, ⟨resolved, (resolve_of_follows follows).trans found, present⟩, endless⟩
      | present kind' first =>
          refine ⟨next, ⟨descriptor, ?_, kind', first⟩, optional, kind, rest, cycle⟩
          exact resolve_of_unaliased (aliasOf?_of_kind (by simp [kind']))

/-- If optional types lead on and on within what can be met, one of them leads back to itself. -/
theorem isEndless_of_forall_presents (goesOn : Descriptor → Prop)
    (presents : ∀ descriptor, goesOn descriptor →
      ∃ inner, Presents aliases descriptor inner ∧ goesOn inner)
    (goes : goesOn descriptor) : IsEndless aliases descriptor := by
  classical
  let points := (reachable aliases descriptor).filter goesOn
  have leads : ∀ point ∈ points, ∃ next ∈ points, Presents aliases point next := by
    intro point listed
    simp only [points, List.mem_filter, decide_eq_true_eq] at listed ⊢
    obtain ⟨inner, step, goes⟩ := presents point listed.2
    exact ⟨inner, ⟨mem_reachable_of_isArgument listed.1 step.isArgument, goes⟩, step⟩
  have listed : descriptor ∈ points := by
    simp only [points, List.mem_filter, decide_eq_true_eq]
    exact ⟨self_mem_reachable, goes⟩
  obtain ⟨point, leadsTo, cycle⟩ := exists_cycle_of_forall_step leads listed
  have unwraps {first last : Descriptor}
      (leads : Relation.ReflTransGen (Presents aliases) first last) :
      Relation.ReflTransGen (Unwraps aliases) first last :=
    Relation.ReflTransGen.lift' id (fun _ _ step => step.leads.to_reflTransGen) _ _ leads
  obtain ⟨inner, step, back⟩ := Relation.TransGen.head'_iff.mp cycle
  obtain ⟨optional, kind, toOptional, present⟩ := step.exists_optional
  refine ⟨optional, kind, (unwraps leadsTo).trans toOptional, ?_⟩
  exact .head' present ((unwraps back).trans toOptional)

/-! ## Spellings along the way -/

theorem textWithin_of_presents (position : Position)
    (presents : Presents aliases descriptor inner) (steps : Nat) :
    textWithin aliases (steps + 1) position descriptor =
      textWithin aliases steps position inner := by
  obtain ⟨⟨kind, name, category, arguments, constant⟩, found, rfl, first⟩ := presents
  obtain ⟨rest, rfl⟩ := List.head?_eq_some_iff.mp first
  cases position with
  | field => simp only [textWithin, fieldTextWithin, found]
  | single => simp only [textWithin, singleTextWithin, found]

theorem text_of_presents (presents : Presents aliases descriptor inner) :
    text aliases position descriptor = text aliases position inner := by
  obtain ⟨optional, found, kind, first⟩ := id presents
  exact text_eq_of_spelledAs (.present found kind first) (textWithin_of_presents position presents)

theorem text_of_unwraps (step : Unwraps aliases descriptor next) :
    text aliases position descriptor = text aliases position next := by
  cases step with
  | target follows => exact text_eq_of_resolve_eq position (resolve_of_follows follows)
  | present optional first =>
      refine text_of_presents ⟨descriptor, ?_, optional, first⟩
      exact resolve_of_unaliased (aliasOf?_of_kind (by simp [optional]))

theorem text_of_leads (position : Position)
    (leads : Relation.ReflTransGen (Unwraps aliases) descriptor next) :
    text aliases position descriptor = text aliases position next := by
  induction leads with
  | refl => rfl
  | tail _ step induction => rw [induction, text_of_unwraps step]

theorem IsEndless.textWithin_eq (endless : IsEndless aliases descriptor) (steps : Nat) :
    textWithin aliases steps position descriptor = .error .endless := by
  induction steps generalizing descriptor with
  | zero => cases position <;> rfl
  | succ steps induction =>
      obtain ⟨inner, presents, endless⟩ := endless.exists_presents
      rw [textWithin_of_presents position presents, induction endless]

theorem IsEndless.text_eq (endless : IsEndless aliases descriptor) (position : Position) :
    text aliases position descriptor = .error .endless := by
  rw [text_eq_textWithin, endless.textWithin_eq]

/-- The spelling of a single type has no end exactly if the type is endless. -/
theorem singleText_eq_endless_iff :
    singleText aliases descriptor = .error .endless ↔ IsEndless aliases descriptor := by
  constructor
  · refine isEndless_of_forall_presents
      (fun descriptor => text aliases .single descriptor = .error .endless)
      fun descriptor goes => ?_
    obtain ⟨form, spelled, equal⟩ := exists_spelledAs_text aliases .single descriptor
    rw [goes] at equal
    cases spelled with
    | plain settled => exact absurd equal.symm settled
    | @present optional inner found kind first =>
        exact ⟨inner, ⟨optional, found, kind, first⟩, equal.symm⟩
    | list whole => cases whole
    | dictionary whole => cases whole
  · exact fun endless => endless.text_eq .single

/-! ## Lists and dictionaries -/

theorem fieldText_array (element : Descriptor) : fieldText aliases (.array element) =
    (singleText aliases element).map fun element => "repeated " ++ element := by
  have found : resolve aliases (.array element) = some (.array element) :=
    resolve_of_unaliased (aliasOf?_of_kind TypeKind.noConfusion)
  have spelled := text_eq_of_spelledAs (.list rfl found rfl rfl) fun steps => by
    simp only [textWithin, fieldTextWithin, found]
    rfl
  refine spelled.trans ?_
  change _ = (text aliases .single element).map _
  cases text aliases .single element <;> rfl

theorem fieldText_map {key value : Descriptor} {keyText : String}
    (spelledKey : fieldText aliases key = .ok keyText) : fieldText aliases (.map key value) =
      (singleText aliases value).map fun value => "map<" ++ keyText ++ ", " ++ value ++ ">" := by
  have found : resolve aliases (.map key value) = some (.map key value) :=
    resolve_of_unaliased (aliasOf?_of_kind TypeKind.noConfusion)
  have spelled := text_eq_of_spelledAs (.dictionary rfl found rfl rfl) fun steps => by
    simp only [textWithin, fieldTextWithin, found]
    rfl
  refine spelled.trans ?_
  change _ = (text aliases .single value).map _
  rw [show text aliases .field key = .ok keyText from spelledKey]
  cases text aliases .single value <;> rfl

theorem map_eq_error_iff {α β ε : Type} {result : Except ε α} {change : α → β} {error : ε} :
    result.map change = .error error ↔ result = .error error := by
  cases result <;> simp [Except.map]

theorem not_isEndless_of_scalar (scalar : descriptor.kind = .scalar) :
    ¬IsEndless aliases descriptor := by
  intro endless
  obtain ⟨inner, ⟨optional, found, kind, _⟩, _⟩ := endless.exists_presents
  rw [resolve_of_unaliased (aliasOf?_of_kind (by simp [scalar]))] at found
  obtain rfl := Option.some.inj found
  simp [scalar] at kind

section Lowered

variable {outline : Outline} {lowerer : Lowerer}

theorem contains_of_leads (contains : outline.Contains descriptor)
    (leads : Relation.ReflTransGen (Unwraps (aliasTable outline)) descriptor next) :
    outline.Contains next := by
  induction leads with
  | refl => exact contains
  | tail _ step contains =>
      cases step with
      | target follows => exact contains_of_follows follows
      | present _ first => exact contains.argument (List.mem_of_head? first)

variable (lowered : IsLoweredBy outline lowerer)

include lowered

theorem exists_fieldText_mapKey {key : Descriptor} (built : lowerer.Builds key) :
    ∃ keyText, fieldText (aliasTable outline) (lowerer.mapKey key) = .ok keyText := by
  rcases fieldTextWithin_mapKey lowered _ built with ⟨keyText, spelled, _⟩ | ⟨_, without⟩
  · exact ⟨keyText, spelled⟩
  · exact absurd (Nat.succ_pos _) without

/-- The spelling of a collection has no end exactly if one of its arguments is endless. -/
theorem collection_eq_endless_iff (contains : outline.Contains descriptor)
    (collection : descriptor.kind = .array ∨ descriptor.kind = .map) :
    fieldText (aliasTable outline) descriptor = .error .endless ↔
      ∃ argument ∈ descriptor.arguments, IsEndless (aliasTable outline) argument := by
  cases lowered.built descriptor contains with
  | @array element built =>
      rw [fieldText_array, map_eq_error_iff, singleText_eq_endless_iff]
      simp [Descriptor.array, Descriptor.ofArguments]
  | @map key value builtKey builtValue =>
      obtain ⟨keyText, spelledKey⟩ := exists_fieldText_mapKey lowered builtKey
      have scalar : ¬IsEndless (aliasTable outline) (lowerer.mapKey key) :=
        not_isEndless_of_scalar (mapKey_mem_keyTypes lowered builtKey).1
      rw [fieldText_map spelledKey, map_eq_error_iff, singleText_eq_endless_iff]
      simp [Descriptor.map, Descriptor.ofArguments, scalar]
  | _ => rcases collection with kind | kind <;> cases kind

/-- The spelling of the type of a field has no end exactly if the type is endless or there is a list
or a dictionary of an endless type on its way. -/
theorem fieldText_eq_endless_iff (contains : outline.Contains descriptor) :
    fieldText (aliasTable outline) descriptor = .error .endless ↔
      IsEndless (aliasTable outline) descriptor ∨ HoldsEndless (aliasTable outline) descriptor := by
  let goesOn (descriptor : Descriptor) := outline.Contains descriptor ∧
    text (aliasTable outline) .field descriptor = .error .endless ∧
    ¬HoldsEndless (aliasTable outline) descriptor
  have goesOn_of_leads {descriptor next : Descriptor} (goes : goesOn descriptor)
      (leads : Relation.ReflTransGen (Unwraps (aliasTable outline)) descriptor next) :
      goesOn next := by
    obtain ⟨contains, endless, without⟩ := goes
    exact ⟨contains_of_leads contains leads, (text_of_leads .field leads).symm.trans endless,
      fun holds => without (holds.of_leads leads)⟩
  have presents (descriptor : Descriptor) (goes : goesOn descriptor) :
      ∃ inner, Presents (aliasTable outline) descriptor inner ∧ goesOn inner := by
    obtain ⟨form, spelled, equal⟩ := exists_spelledAs_text (aliasTable outline) .field descriptor
    rw [goes.2.1] at equal
    have notCollection {resolved : Descriptor}
        (found : resolve (aliasTable outline) descriptor = some resolved) :
        ¬(resolved.kind = .array ∨ resolved.kind = .map) := by
      intro kind
      obtain ⟨containsResolved, endless, without⟩ :=
        goesOn_of_leads goes (unwraps_of_follows (follows_of_resolve found).1)
      exact without ⟨resolved, kind, .refl,
        (collection_eq_endless_iff lowered containsResolved kind).mp endless⟩
    cases spelled with
    | plain settled => exact absurd equal.symm settled
    | @present optional inner found kind first =>
        have present : Presents (aliasTable outline) descriptor inner :=
          ⟨optional, found, kind, first⟩
        exact ⟨inner, present, goesOn_of_leads goes present.leads.to_reflTransGen⟩
    | list _ found kind => exact absurd (.inl kind) (notCollection found)
    | dictionary _ found kind => exact absurd (.inr kind) (notCollection found)
  constructor
  · intro endless
    by_cases holds : HoldsEndless (aliasTable outline) descriptor
    · exact .inr holds
    · exact .inl (isEndless_of_forall_presents goesOn presents ⟨contains, endless, holds⟩)
  · rintro (endless | ⟨collection, kind, leads, holds⟩)
    · exact endless.text_eq .field
    · exact (text_of_leads .field leads).trans
        ((collection_eq_endless_iff lowered (contains_of_leads contains leads) kind).mpr holds)

end Lowered

end Proto
end ProtocolCodegen
