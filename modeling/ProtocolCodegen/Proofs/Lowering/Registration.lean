import ProtocolCodegen.Proofs.Lowering.History
import ProtocolCodegen.Proofs.Lowering.Shapes

/-!
# What lowering registers

Every definition that lowering a type registers is the own definition of a type within it, and all
that the definition uses is defined by then.  Once a type is lowered, all that its descriptor uses
is defined, even where a union was skipped because its name was known or a registration was refused.
-/

namespace ProtocolCodegen

namespace Ledger

/-- All composites that a descriptor uses are defined. -/
def Covers (ledger : Ledger) (descriptor : Descriptor) : Prop :=
  ∀ name, descriptor.Uses name → ledger.defines name = true

theorem Covers.mono {before after : Ledger} {descriptor : Descriptor}
    (covers : before.Covers descriptor) (grown : before.composites <+: after.composites) :
    after.Covers descriptor :=
  fun name uses => defines_mono grown (covers name uses)

/-- What becomes of a ledger when given definitions are registered, each after all that it uses. -/
def Growth (given : String → Composite → Prop) : Ledger → Ledger → Prop :=
  History fun ledger name composite =>
    given name composite ∧ ∀ descriptor ∈ composite.descriptors, ledger.Covers descriptor

theorem Growth.weaken {given given' : String → Composite → Prop} {before after : Ledger}
    (growth : Growth given before after)
    (weaker : ∀ name composite, given name composite → given' name composite) :
    Growth given' before after :=
  growth.mono fun _ name composite permitted => permitted.imp_left (weaker name composite)

theorem growth_registerWrapping (given : String → Composite → Prop) {wrapping : Option Wrapping}
    {wrapped : Descriptor} {ledger : Ledger} (covers : ledger.Covers wrapped)
    (gives : ∀ record, wrapping = some record →
      given record.name (.wrapper record.name record.field wrapped)) :
    Growth given ledger (ledger.registerWrapping wrapping wrapped) ∧
      (ledger.registerWrapping wrapping wrapped).Covers (Lowerer.wrap wrapping wrapped) := by
  cases wrapping with
  | none => exact ⟨.start, covers⟩
  | some record =>
      constructor
      · refine .register .start ⟨gives record rfl, ?_⟩
        intro descriptor listed
        obtain rfl := List.mem_singleton.mp listed
        exact covers
      · intro name uses
        obtain rfl : record.name = name := by
          simpa [Lowerer.wrap] using uses
        exact defines_register _ _ _

/-- Every name has one definition, and all that a definition uses is defined. -/
structure IsClosed (ledger : Ledger) : Prop where
  distinct : ledger.composites.keys.Nodup
  covers : ∀ entry ∈ ledger.composites, ∀ descriptor ∈ entry.2.descriptors,
    ledger.Covers descriptor

theorem isClosed_of_no_composites (events : List Event) : IsClosed ⟨[], events⟩ where
  distinct := List.nodup_nil
  covers := by
    intro entry listed
    cases listed

theorem Growth.isClosed {given : String → Composite → Prop} {before after : Ledger}
    (growth : Growth given before after) (closed : before.IsClosed) : after.IsClosed where
  distinct := growth.nodup_keys closed.distinct
  covers := by
    intro entry listed descriptor inside
    rcases growth.mem_composites listed with old | ⟨moment, ⟨_, covers⟩, grown⟩
    · exact (closed.covers entry old descriptor inside).mono growth.composites_grow
    · exact (covers descriptor inside).mono grown

/-- A name that is defined has exactly one definition among the sorted ones. -/
theorem IsClosed.count_sortedComposites {ledger : Ledger} (closed : ledger.IsClosed)
    {name : String} (defined : ledger.defines name = true) :
    (ledger.sortedComposites.map (·.1)).count name = 1 := by
  have sorted : (ledger.sortedComposites.map (·.1)).Perm ledger.composites.keys :=
    (Text.sortedBy_perm _ _).map _
  rw [sorted.count_eq]
  exact List.count_eq_one_of_mem closed.distinct (defines_iff_mem_keys.mp defined)

/-- A ledger grows through a list of items if it grows at each of them, and what an item settles
stays settled. -/
theorem growth_foldl {α : Type} (given : String → Composite → Prop) (settled : Ledger → α → Prop)
    {step : Ledger → α → Ledger} {items : List α}
    (mono : ∀ {before after : Ledger} (item : α), before.composites <+: after.composites →
      settled before item → settled after item)
    (grows : ∀ item ∈ items, ∀ ledger, Growth given ledger (step ledger item) ∧
      settled (step ledger item) item) (ledger : Ledger) :
    Growth given ledger (items.foldl step ledger) ∧
      ∀ item ∈ items, settled (items.foldl step ledger) item := by
  induction items generalizing ledger with
  | nil => exact ⟨.start, by simp⟩
  | cons first rest induction =>
      obtain ⟨growth, settles⟩ := grows first List.mem_cons_self ledger
      obtain ⟨later, settlesRest⟩ := induction
        (fun item listed => grows item (List.mem_cons_of_mem _ listed)) (step ledger first)
      refine ⟨growth.trans later, ?_⟩
      intro item listed
      rcases List.mem_cons.mp listed with rfl | listed
      · exact mono item later.composites_grow settles
      · exact settlesRest item listed

end Ledger

namespace Lowerer

variable (lowerer : Lowerer)

/-- The types into which lowering a type descends. -/
def entered : Node → List Node
  | .array _ element => [element]
  | .map _ key value => [key, value]
  | .union _ members => (lowerer.unionShape members).members
  | .base .. | .reference .. | .literal .. | .constant .. | .intersection .. | .tuple .. => []

/-- At a type, a composite name is given with the definition that belongs to it: to a union of
several members, to the array that is the value of a map, and to a collection that is a member of a
union of several. -/
inductive Gives : Node → String → Composite → Prop where
  | union {source : Path} {members : List Node}
      (several : 2 ≤ (lowerer.distinctMembers members).length) :
      Gives (.union source members) (lowerer.unionName (lowerer.distinctMembers members))
        (lowerer.unionOf (lowerer.distinctMembers members))
  | value {source : Path} {key value : Node} {record : Wrapping}
      (wrapped : lowerer.mapWrapping? value = some record) :
      Gives (.map source key value) record.name
        (.wrapper record.name record.field (lowerer.descriptor value))
  | member {source : Path} {members : List Node} {member : Node} {record : Wrapping}
      (several : 2 ≤ (lowerer.distinctMembers members).length)
      (listed : member ∈ lowerer.distinctMembers members)
      (wrapped : lowerer.memberWrapping? member = some record) :
      Gives (.union source members) record.name
        (.wrapper record.name record.field (lowerer.descriptor member))

/-- A composite name is given somewhere within a type, where `enter` gives the types that count. -/
def GivesWithin (enter : Node → List Node) (node : Node) (name : String)
    (composite : Composite) : Prop :=
  ∃ place, Node.Within enter place node ∧ lowerer.Gives place name composite

variable {lowerer}

theorem GivesWithin.part {enter : Node → List Node} {part node : Node} {name : String}
    {composite : Composite} (gives : lowerer.GivesWithin enter part name composite)
    (listed : part ∈ enter node) : lowerer.GivesWithin enter node name composite := by
  obtain ⟨place, within, gives⟩ := gives
  exact ⟨place, .part listed within, gives⟩

theorem givesWithin_iff {enter : Node → List Node} {node : Node} {name : String}
    {composite : Composite} :
    lowerer.GivesWithin enter node name composite ↔
      lowerer.Gives node name composite ∨
        ∃ part ∈ enter node, lowerer.GivesWithin enter part name composite := by
  constructor
  · rintro ⟨place, within, gives⟩
    cases within with
    | self => exact .inl gives
    | part listed within => exact .inr ⟨_, listed, place, within, gives⟩
  · rintro (gives | ⟨part, listed, given⟩)
    · exact ⟨node, .self, gives⟩
    · exact given.part listed

theorem entered_subset_parts (node : Node) : lowerer.entered node ⊆ node.parts := by
  cases node with
  | array => exact List.Subset.refl _
  | map => exact List.Subset.refl _
  | union source members => exact fun member => mem_of_mem_unionShape lowerer
  | _ => exact List.nil_subset _

/-- In a definition that is given at a type, each type comes from one into which lowering descends
there, and may be wrapped. -/
theorem exists_entered_of_gives {place : Node} {name : String} {composite : Composite}
    (gives : lowerer.Gives place name composite) {type : Descriptor}
    (inside : type ∈ composite.descriptors) :
    ∃ part ∈ lowerer.entered place, ∃ wrapping, type = wrap wrapping (lowerer.descriptor part) := by
  have distinct {source : Path} {members : List Node} {member : Node}
      (several : 2 ≤ (lowerer.distinctMembers members).length)
      (listed : member ∈ lowerer.distinctMembers members) :
      member ∈ lowerer.entered (.union source members) := by
    rw [entered, unionShape_eq_several lowerer several]
    exact listed
  cases gives with
  | union several =>
      obtain ⟨variant, among, rfl⟩ := List.mem_map.mp inside
      obtain ⟨member, listed, rfl⟩ := List.mem_map.mp among
      exact ⟨member, distinct several listed, lowerer.memberWrapping? member, rfl⟩
  | value wrapped =>
      obtain rfl := List.mem_singleton.mp inside
      exact ⟨_, List.mem_cons_of_mem _ List.mem_cons_self, none, rfl⟩
  | member several listed wrapped =>
      obtain rfl := List.mem_singleton.mp inside
      exact ⟨_, distinct several listed, none, rfl⟩

/-- Lowering a type makes its ledger grow by definitions that `given` allows, until all that the
descriptor of the type uses is defined. -/
def Enrolls (lowerer : Lowerer) (given : String → Composite → Prop) (node : Node) : Prop :=
  ∀ ledger, Ledger.Growth given ledger (lowerer.enroll node ledger) ∧
    (lowerer.enroll node ledger).Covers (lowerer.descriptor node)

theorem Enrolls.weaken {given given' : String → Composite → Prop} {node : Node}
    (enrolls : lowerer.Enrolls given node)
    (weaker : ∀ name composite, given name composite → given' name composite) :
    lowerer.Enrolls given' node :=
  fun ledger => (enrolls ledger).imp_left fun growth => growth.weaken weaker

theorem growth_enrollMember (given : String → Composite → Prop) {member : Node}
    (enrolls : lowerer.Enrolls given member)
    (gives : ∀ record, lowerer.memberWrapping? member = some record →
      given record.name (.wrapper record.name record.field (lowerer.descriptor member)))
    (ledger : Ledger) :
    Ledger.Growth given ledger (lowerer.enrollMember ledger member) ∧
      (lowerer.enrollMember ledger member).Covers (lowerer.memberDescriptor member) := by
  obtain ⟨growth, covers⟩ := enrolls ledger
  obtain ⟨wrapping, wraps⟩ := Ledger.growth_registerWrapping given covers gives
  exact ⟨growth.trans wrapping, wraps⟩

theorem growth_enrollMembers (given : String → Composite → Prop) {members : List Node}
    (enrolls : ∀ member ∈ members, lowerer.Enrolls given member)
    (gives : ∀ member ∈ members, ∀ record, lowerer.memberWrapping? member = some record →
      given record.name (.wrapper record.name record.field (lowerer.descriptor member)))
    (ledger : Ledger) :
    Ledger.Growth given ledger (members.foldl lowerer.enrollMember ledger) ∧
      ∀ member ∈ members,
        (members.foldl lowerer.enrollMember ledger).Covers (lowerer.memberDescriptor member) := by
  apply Ledger.growth_foldl given fun ledger member =>
    ledger.Covers (lowerer.memberDescriptor member)
  · exact fun _ grown covers => covers.mono grown
  · exact fun member listed =>
      growth_enrollMember given (enrolls member listed) (gives member listed)

theorem enrolls_array {source : Path} {element : Node}
    (enrolls : lowerer.Enrolls (lowerer.GivesWithin lowerer.entered element) element) :
    lowerer.Enrolls (lowerer.GivesWithin lowerer.entered (.array source element))
      (.array source element) := by
  intro ledger
  obtain ⟨growth, covers⟩ := enrolls ledger
  rw [enroll, descriptor]
  constructor
  · exact growth.weaken fun _ _ gives => gives.part List.mem_cons_self
  · intro name uses
    exact covers name (Descriptor.uses_array.mp uses)

theorem enrolls_map {source : Path} {key value : Node}
    (enrollsKey : lowerer.Enrolls (lowerer.GivesWithin lowerer.entered key) key)
    (enrollsValue : lowerer.Enrolls (lowerer.GivesWithin lowerer.entered value) value) :
    lowerer.Enrolls (lowerer.GivesWithin lowerer.entered (.map source key value))
      (.map source key value) := by
  let given := lowerer.GivesWithin lowerer.entered (.map source key value)
  have enrollsKey : lowerer.Enrolls given key :=
    enrollsKey.weaken fun _ _ gives => gives.part List.mem_cons_self
  have enrollsValue : lowerer.Enrolls given value :=
    enrollsValue.weaken fun _ _ gives => gives.part (List.mem_cons_of_mem _ List.mem_cons_self)
  intro ledger
  obtain ⟨growthKey, coversKey⟩ := enrollsKey ledger
  obtain ⟨growthValue, coversValue⟩ := enrollsValue (lowerer.enroll key ledger)
  have gives (record : Wrapping) (wrapped : lowerer.mapWrapping? value = some record) :
      given record.name (.wrapper record.name record.field (lowerer.descriptor value)) :=
    ⟨_, .self, .value wrapped⟩
  obtain ⟨wrapping, wraps⟩ := Ledger.growth_registerWrapping given coversValue gives
  rw [enroll, descriptor]
  refine ⟨(growthKey.trans growthValue).trans wrapping, ?_⟩
  intro name uses
  rcases Descriptor.uses_map.mp uses with inKey | inValue
  · rw [mapKey] at inKey
    split at inKey
    · exact absurd inKey Descriptor.not_uses_scalar
    · exact coversKey.mono (growthValue.trans wrapping).composites_grow name inKey
  · exact wraps name inValue

theorem enrolls_union {source : Path} {members : List Node}
    (enrolls : ∀ member ∈ members,
      lowerer.Enrolls (lowerer.GivesWithin lowerer.entered member) member) :
    lowerer.Enrolls (lowerer.GivesWithin lowerer.entered (.union source members))
      (.union source members) := by
  let given := lowerer.GivesWithin lowerer.entered (.union source members)
  have enrolls (member : Node) (listed : member ∈ (lowerer.unionShape members).members) :
      lowerer.Enrolls given member :=
    (enrolls member (mem_of_mem_unionShape lowerer listed)).weaken fun _ _ gives =>
      gives.part listed
  intro ledger
  rw [enroll_union, descriptor_union]
  cases shape : lowerer.unionShape members with
  | optional member =>
      obtain ⟨growth, covers⟩ := enrolls member (by simp [shape, UnionShape.members]) ledger
      exact ⟨growth, fun name uses => covers name (Descriptor.uses_optional.mp uses)⟩
  | empty => exact ⟨.log _ .start, fun name uses => by simp [anything] at uses⟩
  | single member => exact enrolls member (by simp [shape, UnionShape.members]) ledger
  | several different =>
      have refers {name : String}
          (uses : (Descriptor.ofName .union (lowerer.unionName different)).Uses name) :
          lowerer.unionName different = name := (Descriptor.uses_ofName.mp uses).2
      -- A known union is skipped with all that is inside it, and its name is all that is used.
      by_cases known : ledger.defines (lowerer.unionName different) = true
      · simp only [known, if_true]
        exact ⟨.start, fun name uses => refers uses ▸ known⟩
      · obtain ⟨rfl, several⟩ := lowerer.eq_distinctMembers_of_several shape
        obtain ⟨growth, covers⟩ := growth_enrollMembers given
          (fun member listed => enrolls member (by rwa [shape]))
          (fun member listed record wrapped => ⟨_, .self, .member several listed wrapped⟩) ledger
        simp only [known, if_false, Bool.false_eq_true]
        constructor
        · refine .register growth ⟨⟨_, .self, .union several⟩, ?_⟩
          simpa [unionOf, Composite.descriptors] using covers
        · exact fun name uses => refers uses ▸ Ledger.defines_register _ _ _

/-- Lowering a type registers own definitions of types within it, each after all that it uses, and
in the end all that the descriptor of the type uses is defined. -/
theorem enrolls_self (node : Node) :
    lowerer.Enrolls (lowerer.GivesWithin lowerer.entered node) node := by
  induction node using Node.induction with
  | base source name =>
      intro ledger
      rw [enroll, descriptor]
      cases Category.ofBaseType? name with
      | some category => exact ⟨.start, fun name uses => by simp [scalar] at uses⟩
      | none => exact ⟨.log _ .start, fun name uses => by simp [anything] at uses⟩
  | reference source name =>
      intro ledger
      rw [enroll, descriptor, reference]
      refine ⟨.start, fun used uses => ?_⟩
      cases overridden : lowerer.profile.overrides.get? name <;>
        simp [overridden, scalar] at uses
  | array source element induction => exact enrolls_array induction
  | map source key value inductionKey inductionValue =>
      exact enrolls_map inductionKey inductionValue
  | union source members induction => exact enrolls_union induction
  | literal source properties _ =>
      exact fun ledger => ⟨.log _ .start, fun name uses => by simp [descriptor, anything] at uses⟩
  | intersection source members _ =>
      exact fun ledger => ⟨.log _ .start, fun name uses => by simp [descriptor, anything] at uses⟩
  | constant source value =>
      exact fun ledger => ⟨.start, fun name uses => by simp [descriptor, scalar] at uses⟩
  | tuple source members _ =>
      exact fun ledger => ⟨.start, fun name uses => by simp [descriptor, scalar] at uses⟩

theorem growth_enrollOf (node : Option Node) (ledger : Ledger) :
    Ledger.Growth (fun name composite =>
        ∃ whole ∈ node, lowerer.GivesWithin lowerer.entered whole name composite)
      ledger (lowerer.enrollOf node ledger) ∧
      (lowerer.enrollOf node ledger).Covers (lowerer.descriptorOf node) := by
  cases node with
  | none =>
      exact ⟨.log _ .start, fun name uses => by simp [descriptorOf, anything] at uses⟩
  | some whole =>
      exact (lowerer.enrolls_self whole).weaken (fun _ _ gives => ⟨whole, rfl, gives⟩) ledger

end Lowerer
end ProtocolCodegen
