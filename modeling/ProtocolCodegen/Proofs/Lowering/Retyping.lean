import ProtocolCodegen.Proofs.Lowering.Shapes
import ProtocolCodegen.Proofs.Schema.References

/-!
# Lowering with changed types

The names of composites are formed from identifiers that know nothing of what a declared type is
lowered to.  If two lowerers form names alike and differ in declared types by some change, they
differ by this change in every type, and they register the same composites in the same order, with
changed types in them.
-/

namespace ProtocolCodegen

/-! ## Ledgers with changed types -/

/-- A definition with changed types. -/
def Composite.mapTypes (change : Descriptor → Descriptor) : Composite → Composite
  | .union name variants =>
      .union name (variants.map fun variant => { variant with type := change variant.type })
  | .wrapper name field wrapped => .wrapper name field (change wrapped)

namespace Ledger

/-- A ledger in which the definitions have changed types. -/
def mapTypes (change : Descriptor → Descriptor) (ledger : Ledger) : Ledger :=
  { ledger with
    composites := ledger.composites.map fun entry => (entry.1, entry.2.mapTypes change) }

variable (change : Descriptor → Descriptor) (ledger : Ledger)

theorem mapTypes_id : ledger.mapTypes id = ledger := by
  have same (composite : Composite) : composite.mapTypes id = composite := by
    cases composite <;> simp [Composite.mapTypes]
  simp [mapTypes, same]

@[simp]
theorem log_mapTypes (event : Event) :
    (ledger.mapTypes change).log event = (ledger.log event).mapTypes change := rfl

@[simp]
theorem defines_mapTypes (name : String) :
    (ledger.mapTypes change).defines name = ledger.defines name := by
  rw [Bool.eq_iff_iff]
  simp [defines, Dictionary.hasKey_iff_mem_keys, Dictionary.keys, mapTypes]

theorem register_mapTypes (name : String) (composite : Composite) :
    (ledger.mapTypes change).register name (composite.mapTypes change) =
      (ledger.register name composite).mapTypes change := by
  rw [register, register, defines_mapTypes]
  split
  · rfl
  · simp [mapTypes]

theorem registerWrapping_mapTypes (wrapping : Option Wrapping) (wrapped : Descriptor) :
    (ledger.mapTypes change).registerWrapping wrapping (change wrapped) =
      (ledger.registerWrapping wrapping wrapped).mapTypes change := by
  cases wrapping with
  | none => rfl
  | some wrapping =>
      exact ledger.register_mapTypes change wrapping.name
        (.wrapper wrapping.name wrapping.field wrapped)

theorem sortedComposites_mapTypes :
    (ledger.mapTypes change).sortedComposites =
      ledger.sortedComposites.map fun entry => (entry.1, entry.2.mapTypes change) :=
  Text.sortedBy_map _ _ _

end Ledger

/-- A change that commutes with each step of a loop commutes with the loop. -/
theorem foldl_hom_of_mem {σ τ α : Type} {change : σ → τ} {step : σ → α → σ} {step' : τ → α → τ}
    {items : List α}
    (each : ∀ item ∈ items, ∀ state, step' (change state) item = change (step state item))
    (state : σ) : items.foldl step' (change state) = change (items.foldl step state) := by
  induction items generalizing state with
  | nil => rfl
  | cons item rest induction =>
      rw [List.forall_mem_cons] at each
      rw [List.foldl_cons, List.foldl_cons, each.1, induction each.2]

/-! ## Lowerers that form the same names -/

namespace Lowerer

/-- Two lowerers that keep the same members of unions and form and give out names alike. -/
structure SharesNames (lowerer lowerer' : Lowerer) : Prop where
  baseTypes : lowerer'.profile.baseTypes = lowerer.profile.baseTypes
  naming : lowerer'.profile.naming = lowerer.profile.naming
  wrapsMapArrays : lowerer'.profile.wrapsMapArrays = lowerer.profile.wrapsMapArrays
  wrapsUnionCollections :
    lowerer'.profile.wrapsUnionCollections = lowerer.profile.wrapsUnionCollections
  includesProposed : lowerer'.includesProposed = lowerer.includesProposed
  proposed : ∀ name, lowerer'.proposed.get? name = lowerer.proposed.get? name

namespace SharesNames

variable {lowerer lowerer' : Lowerer} (shares : lowerer.SharesNames lowerer')

include shares

theorem scalar_eq (category : Category) : lowerer'.scalar category = lowerer.scalar category := by
  rw [scalar, scalar, shares.baseTypes]

theorem anything_eq : lowerer'.anything = lowerer.anything := by
  rw [anything, anything, shares.baseTypes]

theorem ident_eq : lowerer'.ident = lowerer.ident := by
  funext node
  induction node using Node.induction with
  | array source element induction => rw [ident, ident, induction]
  | map source key value inductionKey inductionValue =>
      rw [ident, ident, inductionKey, inductionValue]
  | _ => simp only [ident, shares.baseTypes, shares.naming]

theorem keeps_eq : lowerer'.keeps = lowerer.keeps := by
  funext node
  have proposed_eq : lowerer'.isProposedReference node = lowerer.isProposedReference node := by
    cases node with
    | reference source name => rw [isProposedReference, isProposedReference, shares.proposed]
    | _ => rfl
  rw [keeps, keeps, proposed_eq, shares.includesProposed]

theorem unionShape_eq (members : List Node) :
    lowerer'.unionShape members = lowerer.unionShape members := by
  rw [unionShape, unionShape, distinctMembers, distinctMembers, shares.ident_eq, shares.keeps_eq]

theorem unionName_eq (members : List Node) :
    lowerer'.unionName members = lowerer.unionName members := by
  rw [unionName, unionName, shares.ident_eq, shares.naming]

theorem mapWrapping?_eq (value : Node) :
    lowerer'.mapWrapping? value = lowerer.mapWrapping? value := by
  cases value with
  | array source element =>
      rw [mapWrapping?, mapWrapping?, shares.ident_eq, shares.naming, shares.wrapsMapArrays]
  | _ => rfl

theorem memberWrapping?_eq (member : Node) :
    lowerer'.memberWrapping? member = lowerer.memberWrapping? member := by
  simp only [memberWrapping?, shares.ident_eq, shares.naming, shares.wrapsUnionCollections]

end SharesNames

end Lowerer

/-! ## Lowerers of changed types -/

/-- A change that goes into the arguments of types and leaves all types as they are but declared
ones. -/
structure Descriptor.ChangesNamed (change : Descriptor → Descriptor) : Prop where
  scalar : ∀ category spelling constant,
    change { Descriptor.scalar category spelling with constant } =
      { Descriptor.scalar category spelling with constant }
  ofName : ∀ kind ≠ .named, ∀ name, change (.ofName kind name) = .ofName kind name
  array : ∀ element, change (.array element) = .array (change element)
  map : ∀ key value, change (.map key value) = .map (change key) (change value)
  optional : ∀ inner, change (.optional inner) = .optional (change inner)

namespace Lowerer

theorem references_subset_of_mem_unionShape (lowerer : Lowerer) (source : Path)
    {members : List Node} {member : Node}
    (listed : member ∈ (lowerer.unionShape members).members) :
    member.references true ⊆ (Node.union source members).references true := by
  have part : member ∈ (Node.union source members).parts := mem_of_mem_unionShape lowerer listed
  exact Node.references_subset_of_part part

/-- Of two lowerers that form the same names, the second changes the declared types of some names,
and with them the keys of maps. -/
structure Retypes (change : Descriptor → Descriptor) (names : List String)
    (lowerer lowerer' : Lowerer) : Prop where
  shares : lowerer.SharesNames lowerer'
  changes : Descriptor.ChangesNamed change
  reference : ∀ name ∈ names, lowerer'.reference name = change (lowerer.reference name)
  mapKey : ∀ key, lowerer'.mapKey (change key) = change (lowerer.mapKey key)

namespace Retypes

variable {change : Descriptor → Descriptor} {names : List String} {lowerer lowerer' : Lowerer}
  (retypes : Retypes change names lowerer lowerer')

include retypes

theorem scalar_eq (category : Category) :
    lowerer'.scalar category = change (lowerer.scalar category) := by
  rw [retypes.shares.scalar_eq]
  exact (retypes.changes.scalar category _ none).symm

theorem anything_eq : lowerer'.anything = change lowerer.anything := by
  rw [retypes.shares.anything_eq]
  exact (retypes.changes.ofName .any (by decide) _).symm

theorem wrap_eq (wrapping : Option Wrapping) (wrapped : Descriptor) :
    wrap wrapping (change wrapped) = change (wrap wrapping wrapped) := by
  cases wrapping with
  | none => rfl
  | some wrapping => exact (retypes.changes.ofName .wrapper (by decide) _).symm

/-- Every type that refers to these names alone is changed. -/
theorem descriptor_eq {node : Node} (mentions : node.references true ⊆ names) :
    lowerer'.descriptor node = change (lowerer.descriptor node) := by
  have shares := retypes.shares
  induction node using Node.induction with
  | base source base =>
      rw [descriptor, descriptor]
      split
      · exact retypes.scalar_eq _
      · exact retypes.anything_eq
  | reference source name => exact retypes.reference name (mentions List.mem_cons_self)
  | array source element induction =>
      rw [descriptor, descriptor, induction mentions, retypes.changes.array]
  | map source key value inductionKey inductionValue =>
      rw [Node.references, List.append_subset] at mentions
      rw [descriptor, descriptor, inductionKey mentions.1, inductionValue mentions.2,
        shares.mapWrapping?_eq, retypes.mapKey, retypes.wrap_eq, retypes.changes.map]
  | literal | intersection => exact retypes.anything_eq
  | constant source value =>
      rw [descriptor, descriptor, shares.scalar_eq]
      exact (retypes.changes.scalar .string _ (some value)).symm
  | tuple => exact retypes.scalar_eq .array
  | union source members induction =>
      have inside (member : Node) (listed : member ∈ (lowerer.unionShape members).members) :
          lowerer'.descriptor member = change (lowerer.descriptor member) :=
        induction member (mem_of_mem_unionShape lowerer listed)
          (List.Subset.trans (references_subset_of_mem_unionShape lowerer source listed) mentions)
      rw [descriptor_union, descriptor_union, shares.unionShape_eq]
      cases shape : lowerer.unionShape members with
      | optional member =>
          simp only [inside member (by simp [shape, UnionShape.members]), retypes.changes.optional]
      | empty => exact retypes.anything_eq
      | single member => exact inside member (by simp [shape, UnionShape.members])
      | several different =>
          simp only [shares.unionName_eq]
          exact (retypes.changes.ofName .union (by decide) _).symm

theorem unionOf_eq {members : List Node}
    (inside : ∀ member ∈ members, lowerer'.descriptor member = change (lowerer.descriptor member)) :
    lowerer'.unionOf members = (lowerer.unionOf members).mapTypes change := by
  have shares := retypes.shares
  have variants : (members.map fun node =>
        (⟨lowerer'.ident node, lowerer'.memberDescriptor node⟩ : Variant)) =
      members.map fun node => ⟨lowerer.ident node, change (lowerer.memberDescriptor node)⟩ := by
    refine List.map_congr_left fun member listed => ?_
    rw [memberDescriptor, memberDescriptor, shares.ident_eq, shares.memberWrapping?_eq,
      inside member listed, retypes.wrap_eq]
  simp only [unionOf, Composite.mapTypes, shares.unionName_eq, variants, List.map_map,
    Function.comp_def]

theorem enrollMember_mapTypes {member : Node}
    (descriptor : lowerer'.descriptor member = change (lowerer.descriptor member))
    (inside : ∀ ledger : Ledger, lowerer'.enroll member (ledger.mapTypes change) =
      (lowerer.enroll member ledger).mapTypes change)
    (ledger : Ledger) :
    lowerer'.enrollMember (ledger.mapTypes change) member =
      (lowerer.enrollMember ledger member).mapTypes change := by
  rw [enrollMember, enrollMember, inside, descriptor, retypes.shares.memberWrapping?_eq,
    Ledger.registerWrapping_mapTypes]

/-- A type that refers to these names alone registers the same composites with changed types. -/
theorem enroll_mapTypes {node : Node} (mentions : node.references true ⊆ names)
    (ledger : Ledger) :
    lowerer'.enroll node (ledger.mapTypes change) =
      (lowerer.enroll node ledger).mapTypes change := by
  have shares := retypes.shares
  induction node using Node.induction generalizing ledger with
  | base source base =>
      rw [enroll, enroll]
      split <;> simp
  | reference | constant | tuple => simp only [enroll]
  | literal | intersection => simp only [enroll, Ledger.log_mapTypes]
  | array source element induction => rw [enroll, enroll, induction mentions]
  | map source key value inductionKey inductionValue =>
      rw [Node.references, List.append_subset] at mentions
      rw [enroll, enroll, inductionKey mentions.1, inductionValue mentions.2,
        shares.mapWrapping?_eq, retypes.descriptor_eq mentions.2,
        Ledger.registerWrapping_mapTypes]
  | union source members induction =>
      have within (member : Node) (listed : member ∈ (lowerer.unionShape members).members) :
          member.references true ⊆ names :=
        List.Subset.trans (references_subset_of_mem_unionShape lowerer source listed) mentions
      have inside (member : Node) (listed : member ∈ (lowerer.unionShape members).members) :=
        induction member (mem_of_mem_unionShape lowerer listed) (within member listed)
      rw [enroll_union, enroll_union, shares.unionShape_eq]
      cases shape : lowerer.unionShape members with
      | optional member => exact inside member (by simp [shape, UnionShape.members]) ledger
      | empty => exact ledger.log_mapTypes _ _
      | single member => exact inside member (by simp [shape, UnionShape.members]) ledger
      | several different =>
          have descriptors (member : Node) (listed : member ∈ different) :=
            retypes.descriptor_eq (within member (by rwa [shape]))
          have enrolled : different.foldl lowerer'.enrollMember (ledger.mapTypes change) =
              (different.foldl lowerer.enrollMember ledger).mapTypes change :=
            foldl_hom_of_mem (fun member listed => retypes.enrollMember_mapTypes
              (descriptors member listed) (inside member (by rwa [shape]))) ledger
          simp only [shares.unionName_eq, Ledger.defines_mapTypes, enrolled,
            retypes.unionOf_eq descriptors, Ledger.register_mapTypes]
          split <;> rfl

end Retypes
end Lowerer
end ProtocolCodegen
