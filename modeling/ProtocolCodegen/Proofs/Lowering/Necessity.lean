import ProtocolCodegen.Proofs.Lowering.Transparency

/-!
# What is registered is used

Where no composite name is given with two definitions, lowering registers nothing in vain: every
name that becomes defined is one to which the descriptor of the lowered type leads.  Only composites
within the key of a map can be left over, if the key gives way to a string.  Ledgers that serve the
same descriptors therefore hold the same definitions, whatever the order of the registrations was.
-/

namespace ProtocolCodegen

namespace Dictionary

theorem get?_of_mem {κ α : Type} [DecidableEq κ] {key : κ} {value : α}
    {dictionary : Dictionary κ α} (distinct : dictionary.keys.Nodup)
    (listed : (key, value) ∈ dictionary) : dictionary.get? key = some value := by
  have known : dictionary.hasKey key = true :=
    hasKey_iff_mem_keys.mpr (List.mem_map_of_mem listed)
  obtain ⟨other, found⟩ := Option.isSome_iff_exists.mp known
  have same : (key, other) = (key, value) :=
    List.inj_on_of_nodup_map distinct (mem_of_get? found) listed rfl
  obtain rfl : other = value := congrArg Prod.snd same
  exact found

end Dictionary

namespace Ledger

variable {given : String → Composite → Prop}

/-- No name is given with two definitions. -/
def Unambiguous (given : String → Composite → Prop) : Prop :=
  ∀ name first second, given name first → given name second → first = second

/-- All definitions of a ledger are given ones. -/
def Holds (given : String → Composite → Prop) (ledger : Ledger) : Prop :=
  ∀ entry ∈ ledger.composites, given entry.1 entry.2

theorem Growth.holds {before after : Ledger} (growth : Growth given before after)
    (holds : before.Holds given) : after.Holds given := by
  intro entry listed
  rcases growth.mem_composites listed with old | ⟨_, ⟨gives, _⟩, _⟩
  · exact holds entry old
  · exact gives

theorem holds_register {ledger : Ledger} {name : String} {composite : Composite}
    (holds : ledger.Holds given) (gives : given name composite) :
    (ledger.register name composite).Holds given := by
  cases taken : ledger.defines name with
  | true => rwa [register_of_defines composite taken]
  | false =>
      intro entry listed
      rw [composites_register_of_fresh composite taken] at listed
      rcases List.mem_append.mp listed with old | new
      · exact holds entry old
      · rw [List.mem_singleton.mp new]
        exact gives

theorem defines_register_iff {ledger : Ledger} {name other : String} {composite : Composite} :
    (ledger.register name composite).defines other = true ↔
      ledger.defines other = true ∨ other = name := by
  cases taken : ledger.defines name with
  | true =>
      rw [register_of_defines composite taken]
      refine ⟨.inl, ?_⟩
      rintro (defined | rfl)
      · exact defined
      · exact taken
  | false =>
      rw [defines_iff_mem_keys, defines_iff_mem_keys, composites_register_of_fresh composite taken]
      simp [Dictionary.keys]

theorem holds_registerWrapping {ledger : Ledger} {wrapping : Option Wrapping} {wrapped : Descriptor}
    (holds : ledger.Holds given)
    (gives : ∀ record, wrapping = some record →
      given record.name (.wrapper record.name record.field wrapped)) :
    (ledger.registerWrapping wrapping wrapped).Holds given := by
  cases wrapping with
  | none => exact holds
  | some record => exact holds_register holds (gives record rfl)

theorem composites_grow_registerWrapping (wrapping : Option Wrapping) (wrapped : Descriptor)
    (ledger : Ledger) :
    ledger.composites <+: (ledger.registerWrapping wrapping wrapped).composites := by
  cases wrapping with
  | none => exact List.prefix_rfl
  | some record => exact composites_register_grow _ _ _

/-- Where names are unambiguous, a name that is defined has the definition that is given. -/
theorem Holds.get?_eq {ledger : Ledger} {name : String} {composite : Composite}
    (holds : ledger.Holds given) (unambiguous : Unambiguous given)
    (defined : ledger.defines name = true) (gives : given name composite) :
    ledger.composites.get? name = some composite := by
  obtain ⟨other, found⟩ := defines_iff.mp defined
  have givesOther : given name other := holds _ (Dictionary.mem_of_get? found)
  rw [found, unambiguous name other composite givesOther gives]

/-! ## Names that are reached -/

theorem Reaches.mono {before after : Ledger} {returned : List Descriptor} {name : String}
    (reaches : before.Reaches returned name) (grown : before.composites <+: after.composites) :
    after.Reaches returned name := by
  induction reaches with
  | used listed uses => exact .used listed uses
  | through _ found uses induction =>
      exact .through induction (Dictionary.get?_of_prefix grown found) uses

theorem Reaches.weaken {ledger : Ledger} {returned returned' : List Descriptor} {name : String}
    (reaches : ledger.Reaches returned name)
    (leads : ∀ descriptor ∈ returned, ∀ used, descriptor.Uses used →
      ledger.Reaches returned' used) : ledger.Reaches returned' name := by
  induction reaches with
  | used listed uses => exact leads _ listed _ uses
  | through _ found uses induction => exact .through induction found uses

/-- Every name that became defined is one to which some descriptors lead. -/
def Accounts (returned : List Descriptor) (before after : Ledger) : Prop :=
  ∀ name, after.defines name = true → before.defines name = true ∨ after.Reaches returned name

theorem accounts_refl (returned : List Descriptor) (ledger : Ledger) :
    Accounts returned ledger ledger :=
  fun _ => .inl

theorem Accounts.weaken {returned returned' : List Descriptor} {before after : Ledger}
    (accounts : Accounts returned before after)
    (leads : ∀ descriptor ∈ returned, ∀ used, descriptor.Uses used →
      after.Reaches returned' used) : Accounts returned' before after :=
  fun name defined => (accounts name defined).imp_right (·.weaken leads)

theorem Accounts.trans {returned returned' : List Descriptor} {before middle after : Ledger}
    (first : Accounts returned before middle) (second : Accounts returned' middle after)
    (grown : middle.composites <+: after.composites) :
    Accounts (returned ++ returned') before after := by
  intro name defined
  rcases second name defined with earlier | reaches
  · refine (first name earlier).imp_right fun reaches => ?_
    exact (reaches.mono grown).weaken fun descriptor listed used uses =>
      .used (List.mem_append_left _ listed) uses
  · refine .inr (reaches.weaken fun descriptor listed used uses => ?_)
    exact .used (List.mem_append_right _ listed) uses

/-- What the items of a list account for one by one, they account for together. -/
theorem accounts_foldl {α : Type} (returned : α → List Descriptor)
    {step : Ledger → α → Ledger} {items : List α}
    (each : ∀ item ∈ items, ∀ ledger : Ledger, ledger.Holds given →
      (step ledger item).Holds given ∧ ledger.composites <+: (step ledger item).composites ∧
        Accounts (returned item) ledger (step ledger item))
    {ledger : Ledger} (holds : ledger.Holds given) :
    (items.foldl step ledger).Holds given ∧
      ledger.composites <+: (items.foldl step ledger).composites ∧
      Accounts (items.flatMap returned) ledger (items.foldl step ledger) := by
  induction items generalizing ledger with
  | nil => exact ⟨holds, List.prefix_rfl, accounts_refl _ ledger⟩
  | cons item rest induction =>
      obtain ⟨holdsFirst, grownFirst, accountsFirst⟩ := each item List.mem_cons_self ledger holds
      obtain ⟨holdsRest, grownRest, accountsRest⟩ := induction
        (fun other listed => each other (List.mem_cons_of_mem _ listed)) holdsFirst
      exact ⟨holdsRest, grownFirst.trans grownRest, accountsFirst.trans accountsRest grownRest⟩

/-- A definition leads on to all to which its parts lead. -/
theorem Accounts.register (unambiguous : Unambiguous given) {parts : List Descriptor}
    {name : String} {composite : Composite} {descriptor : Descriptor} {before middle : Ledger}
    (holds : middle.Holds given) (accounts : Accounts parts before middle)
    (own : given name composite) (inside : parts ⊆ composite.descriptors)
    (uses_own : descriptor.Uses name) :
    Accounts [descriptor] before (middle.register name composite) := by
  have found := (holds_register holds own).get?_eq unambiguous (defines_register _ _ _) own
  have reaches_own : (middle.register name composite).Reaches [descriptor] name :=
    .used List.mem_cons_self uses_own
  intro other defined
  rcases defines_register_iff.mp defined with earlier | rfl
  · refine (accounts other earlier).imp_right fun reaches => ?_
    have later := reaches.mono (composites_register_grow name composite middle)
    exact later.weaken fun part listed used uses =>
      .through reaches_own found ⟨part, inside listed, uses⟩
  · exact .inr reaches_own

theorem Accounts.registerWrapping (unambiguous : Unambiguous given) {wrapping : Option Wrapping}
    {wrapped : Descriptor} {before middle : Ledger} (holds : middle.Holds given)
    (accounts : Accounts [wrapped] before middle)
    (gives : ∀ record, wrapping = some record →
      given record.name (.wrapper record.name record.field wrapped)) :
    Accounts [Lowerer.wrap wrapping wrapped] before (middle.registerWrapping wrapping wrapped) := by
  cases wrapping with
  | none => exact accounts
  | some record =>
      have uses_own : (Lowerer.wrap (some record) wrapped).Uses record.name := by
        simp [Lowerer.wrap]
      exact accounts.register unambiguous holds (gives record rfl) (List.Subset.refl _) uses_own

/-- A ledger that serves some descriptors: its definitions are given ones, and it defines all to
which the descriptors lead. -/
structure Serves (given : String → Composite → Prop) (returned : List Descriptor)
    (ledger : Ledger) : Prop where
  closed : ledger.IsClosed
  covers : ∀ descriptor ∈ returned, ledger.Covers descriptor
  holds : ledger.Holds given

namespace Serves

variable {returned : List Descriptor} {first second : Ledger} {name : String}

theorem exists_entry (serves : first.Serves given returned)
    (reaches : first.Reaches returned name) :
    ∃ composite, first.composites.get? name = some composite ∧ given name composite := by
  obtain ⟨composite, found⟩ := defines_iff.mp (reaches.defines serves.closed serves.covers)
  exact ⟨composite, found, serves.holds _ (Dictionary.mem_of_get? found)⟩

/-- Ledgers that serve the same descriptors agree on all to which these lead. -/
theorem reaches_and_get?_eq (unambiguous : Unambiguous given)
    (serves : first.Serves given returned) (serves' : second.Serves given returned)
    (reaches : first.Reaches returned name) :
    second.Reaches returned name ∧
      second.composites.get? name = first.composites.get? name := by
  have agree {name : String} (reaches : first.Reaches returned name)
      (reaches' : second.Reaches returned name) :
      second.composites.get? name = first.composites.get? name := by
    obtain ⟨composite, found, gives⟩ := serves.exists_entry reaches
    obtain ⟨composite', found', gives'⟩ := serves'.exists_entry reaches'
    rw [found, found', unambiguous name composite' composite gives' gives]
  have reaches' : second.Reaches returned name := by
    induction reaches with
    | used listed uses => exact .used listed uses
    | through reached found uses induction =>
        exact .through induction ((agree reached induction).trans found) uses
  exact ⟨reaches', agree reaches reaches'⟩

/-- Ledgers that serve the same descriptors and define nothing else have the same definitions. -/
theorem sortedComposites_eq (unambiguous : Unambiguous given)
    (serves : first.Serves given returned) (serves' : second.Serves given returned)
    (accounts : ∀ name, first.defines name = true → first.Reaches returned name)
    (accounts' : ∀ name, second.defines name = true → second.Reaches returned name) :
    second.sortedComposites = first.sortedComposites := by
  have includes {first second : Ledger} (serves : first.Serves given returned)
      (serves' : second.Serves given returned)
      (accounts : ∀ name, first.defines name = true → first.Reaches returned name) :
      first.composites ⊆ second.composites := by
    rintro ⟨name, composite⟩ listed
    have found := Dictionary.get?_of_mem serves.closed.distinct listed
    have reaches := accounts name (defines_iff.mpr ⟨composite, found⟩)
    obtain ⟨_, same⟩ := reaches_and_get?_eq unambiguous serves serves' reaches
    exact Dictionary.mem_of_get? (same.trans found)
  have distinct : first.composites.Nodup := serves.closed.distinct.of_map
  have distinct' : second.composites.Nodup := serves'.closed.distinct.of_map
  have reordered : second.composites.Perm first.composites :=
    (List.perm_ext_iff_of_nodup distinct' distinct).mpr fun entry =>
      ⟨(includes serves' serves accounts' ·), (includes serves serves' accounts ·)⟩
  exact Text.sortedBy_eq_of_perm reordered serves.closed.distinct

end Serves
end Ledger

namespace Lowerer

variable {lowerer : Lowerer} {given : String → Composite → Prop}

/-- Nothing within the key of a map is given a composite name, unless the key is kept. -/
def SparesKeys (lowerer : Lowerer) (node : Node) : Prop :=
  ∀ source key value, Node.Within lowerer.entered (.map source key value) node →
    lowerer.mapKey (lowerer.descriptor key) ≠ lowerer.descriptor key →
    ∀ name composite, ¬lowerer.GivesWithin lowerer.entered key name composite

theorem SparesKeys.part {part node : Node} (spares : lowerer.SparesKeys node)
    (listed : part ∈ lowerer.entered node) : lowerer.SparesKeys part :=
  fun source key value within => spares source key value (.part listed within)

/-- In a language whose maps have keys of any type, all keys are kept. -/
theorem sparesKeys_of_not_scalarMapKeys (anyKeys : lowerer.profile.scalarMapKeys = false)
    (node : Node) : lowerer.SparesKeys node := by
  intro source key value _ replaced
  exact absurd (by simp [mapKey, anyKeys]) replaced

/-- Lowering a type registers given definitions, and only such as its descriptor leads to. -/
def Accounts (lowerer : Lowerer) (given : String → Composite → Prop) (node : Node) : Prop :=
  ∀ ledger : Ledger, ledger.Holds given → (lowerer.enroll node ledger).Holds given ∧
    Ledger.Accounts [lowerer.descriptor node] ledger (lowerer.enroll node ledger)

theorem composites_grow_enroll (node : Node) (ledger : Ledger) :
    ledger.composites <+: (lowerer.enroll node ledger).composites :=
  (lowerer.enrolls_self node ledger).1.composites_grow

/-- A type within which nothing is given a name registers nothing. -/
theorem defines_of_defines_enroll {node : Node} {ledger : Ledger} {name : String}
    (nothing : ∀ name composite, ¬lowerer.GivesWithin lowerer.entered node name composite)
    (defined : (lowerer.enroll node ledger).defines name = true) : ledger.defines name = true := by
  obtain ⟨composite, found⟩ := Ledger.defines_iff.mp defined
  rcases (lowerer.enrolls_self node ledger).1.mem_composites (Dictionary.mem_of_get? found) with
    old | ⟨_, ⟨gives, _⟩, _⟩
  · exact Ledger.defines_iff_mem_keys.mpr (List.mem_map_of_mem old)
  · exact absurd gives (nothing name composite)

theorem accounts_array {source : Path} {element : Node}
    (accounts : lowerer.Accounts given element) :
    lowerer.Accounts given (.array source element) := by
  intro ledger holds
  obtain ⟨holds, accounts⟩ := accounts ledger holds
  rw [enroll, descriptor]
  refine ⟨holds, accounts.weaken fun descriptor listed used uses => ?_⟩
  obtain rfl := List.mem_singleton.mp listed
  exact .used List.mem_cons_self (Descriptor.uses_array.mpr uses)

theorem accounts_map (unambiguous : Ledger.Unambiguous given) {source : Path} {key value : Node}
    (accountsKey : lowerer.Accounts given key) (accountsValue : lowerer.Accounts given value)
    (gives : ∀ record, lowerer.mapWrapping? value = some record →
      given record.name (.wrapper record.name record.field (lowerer.descriptor value)))
    (spares : lowerer.mapKey (lowerer.descriptor key) ≠ lowerer.descriptor key →
      ∀ name composite, ¬lowerer.GivesWithin lowerer.entered key name composite) :
    lowerer.Accounts given (.map source key value) := by
  intro ledger holds
  obtain ⟨holdsKey, accountsKey⟩ := accountsKey ledger holds
  obtain ⟨holdsValue, accountsValue⟩ := accountsValue _ holdsKey
  have kept : Ledger.Accounts [lowerer.mapKey (lowerer.descriptor key)] ledger
      (lowerer.enroll key ledger) := by
    by_cases replaced : lowerer.mapKey (lowerer.descriptor key) = lowerer.descriptor key
    · rwa [replaced]
    · exact fun name defined => .inl (defines_of_defines_enroll (spares replaced) defined)
  have wrapped := accountsValue.registerWrapping unambiguous holdsValue gives
  have grown : (lowerer.enroll key ledger).composites <+:
      ((lowerer.enroll value (lowerer.enroll key ledger)).registerWrapping
        (lowerer.mapWrapping? value) (lowerer.descriptor value)).composites :=
    (composites_grow_enroll value _).trans (Ledger.composites_grow_registerWrapping _ _ _)
  rw [enroll, descriptor]
  refine ⟨Ledger.holds_registerWrapping holdsValue gives, ?_⟩
  refine (kept.trans wrapped grown).weaken fun descriptor listed used uses => ?_
  have inside : Descriptor.Uses (.map (lowerer.mapKey (lowerer.descriptor key))
      (wrap (lowerer.mapWrapping? value) (lowerer.descriptor value))) used := by
    rcases List.mem_pair.mp listed with rfl | rfl
    · exact Descriptor.uses_map.mpr (.inl uses)
    · exact Descriptor.uses_map.mpr (.inr uses)
  exact .used List.mem_cons_self inside

theorem accounts_enrollMember (unambiguous : Ledger.Unambiguous given) {member : Node}
    (accounts : lowerer.Accounts given member)
    (gives : ∀ record, lowerer.memberWrapping? member = some record →
      given record.name (.wrapper record.name record.field (lowerer.descriptor member)))
    {ledger : Ledger} (holds : ledger.Holds given) :
    (lowerer.enrollMember ledger member).Holds given ∧
      ledger.composites <+: (lowerer.enrollMember ledger member).composites ∧
      Ledger.Accounts [lowerer.memberDescriptor member] ledger
        (lowerer.enrollMember ledger member) := by
  obtain ⟨holdsMember, accountsMember⟩ := accounts ledger holds
  have grownMember : ledger.composites <+: (lowerer.enroll member ledger).composites :=
    composites_grow_enroll member ledger
  have grown := grownMember.trans (Ledger.composites_grow_registerWrapping
    (lowerer.memberWrapping? member) (lowerer.descriptor member) _)
  exact ⟨Ledger.holds_registerWrapping holdsMember gives, grown,
    accountsMember.registerWrapping unambiguous holdsMember gives⟩

theorem accounts_union (unambiguous : Ledger.Unambiguous given) {source : Path}
    {members : List Node}
    (accounts : ∀ member ∈ (lowerer.unionShape members).members, lowerer.Accounts given member)
    (gives : ∀ name composite, lowerer.Gives (.union source members) name composite →
      given name composite) :
    lowerer.Accounts given (.union source members) := by
  intro ledger holds
  rw [enroll_union, descriptor_union]
  cases shape : lowerer.unionShape members with
  | optional member =>
      obtain ⟨holds, accounts⟩ := accounts member (by simp [shape, UnionShape.members]) ledger holds
      refine ⟨holds, accounts.weaken fun descriptor listed used uses => ?_⟩
      obtain rfl := List.mem_singleton.mp listed
      exact .used List.mem_cons_self (Descriptor.uses_optional.mpr uses)
  | empty => exact ⟨holds, fun _ => .inl⟩
  | single member => exact accounts member (by simp [shape, UnionShape.members]) ledger holds
  | several different =>
      by_cases known : ledger.defines (lowerer.unionName different) = true
      · simp only [known, if_true]
        exact ⟨holds, Ledger.accounts_refl _ ledger⟩
      · obtain ⟨rfl, several⟩ := lowerer.eq_distinctMembers_of_several shape
        have own := gives _ _ (.union several)
        obtain ⟨holdsMembers, _, accountsMembers⟩ := Ledger.accounts_foldl
          (fun member => [lowerer.memberDescriptor member])
          (fun member listed ledger holds => accounts_enrollMember unambiguous
            (accounts member (by rwa [shape]))
            (fun record wrapped => gives _ _ (.member several listed wrapped)) holds) holds
        have inside : (lowerer.distinctMembers members).flatMap
            (fun member => [lowerer.memberDescriptor member]) ⊆
            (lowerer.unionOf (lowerer.distinctMembers members)).descriptors := by
          intro part listed
          simpa [unionOf, Composite.descriptors, eq_comm] using listed
        simp only [known, if_false, Bool.false_eq_true]
        exact ⟨Ledger.holds_register holdsMembers own,
          accountsMembers.register unambiguous holdsMembers own inside (by simp)⟩

/-- Where no name is given with two definitions and no key gives way that has composites, lowering a
type registers nothing in vain. -/
theorem accounts_enroll (unambiguous : Ledger.Unambiguous given) {node : Node}
    (gives : ∀ name composite, lowerer.GivesWithin lowerer.entered node name composite →
      given name composite)
    (spares : lowerer.SparesKeys node) : lowerer.Accounts given node := by
  induction node using Node.induction with
  | array source element induction =>
      have listed : element ∈ lowerer.entered (.array source element) := List.mem_cons_self
      exact accounts_array (induction (fun name composite given => gives name composite
        (given.part listed)) (spares.part listed))
  | map source key value inductionKey inductionValue =>
      have listed : key ∈ lowerer.entered (.map source key value) := List.mem_cons_self
      have listed' : value ∈ lowerer.entered (.map source key value) :=
        List.mem_cons_of_mem _ List.mem_cons_self
      apply accounts_map unambiguous
      · exact inductionKey (fun name composite given => gives name composite (given.part listed))
          (spares.part listed)
      · exact inductionValue (fun name composite given => gives name composite (given.part listed'))
          (spares.part listed')
      · exact fun record wrapped => gives _ _ ⟨_, .self, .value wrapped⟩
      · exact spares source key value .self
  | union source members induction =>
      apply accounts_union unambiguous
      · intro member listed
        exact induction member (mem_of_mem_unionShape lowerer listed)
          (fun name composite given => gives name composite (given.part listed))
          (spares.part listed)
      · exact fun name composite own => gives name composite ⟨_, .self, own⟩
  | base source name =>
      intro ledger holds
      rw [enroll]
      split
      · exact ⟨holds, Ledger.accounts_refl _ ledger⟩
      · exact ⟨holds, fun _ => .inl⟩
  | literal source properties _ => exact fun ledger holds => ⟨holds, fun _ => .inl⟩
  | intersection source members _ => exact fun ledger holds => ⟨holds, fun _ => .inl⟩
  | reference source name => exact fun ledger holds => ⟨holds, Ledger.accounts_refl _ ledger⟩
  | constant source value => exact fun ledger holds => ⟨holds, Ledger.accounts_refl _ ledger⟩
  | tuple source members _ => exact fun ledger holds => ⟨holds, Ledger.accounts_refl _ ledger⟩

end Lowerer
end ProtocolCodegen
