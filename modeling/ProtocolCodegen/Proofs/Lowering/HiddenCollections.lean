import Mathlib
import ProtocolCodegen.Proofs.Lowering.Transparency

/-!
# Hidden collections

A language may lack lists and dictionaries in unions, or lists in dictionaries.  Lowering wraps them
there by the look of the type in the schema.  A union with a single member that counts looks like
none of them but is lowered to what the member is lowered to, so it hides a collection from the
wrapping.  Such unions are the only types at which a collection stays where the language lacks it.
-/

namespace ProtocolCodegen

/-- The kind of collection that a type is in the schema. -/
def Node.collectionKind? : Node → Option TypeKind
  | .array .. => some .array
  | .map .. => some .map
  | _ => none

namespace Lowerer

variable {lowerer : Lowerer} {kind : TypeKind}

/-- A union comes down to its single member, and to what that comes down to. -/
inductive ComesDownTo (lowerer : Lowerer) (inner : Node) : Node → Prop where
  | single {source : Path} {members : List Node}
      (shape : lowerer.unionShape members = .single inner) :
      ComesDownTo lowerer inner (.union source members)
  | through {source : Path} {members : List Node} {member : Node}
      (shape : lowerer.unionShape members = .single member)
      (further : ComesDownTo lowerer inner member) :
      ComesDownTo lowerer inner (.union source members)

/-- A type is a union that comes down to a collection. -/
def Hides (lowerer : Lowerer) (kind : TypeKind) (node : Node) : Prop :=
  ∃ inner, lowerer.ComesDownTo inner node ∧ inner.collectionKind? = some kind

/-- Lowering descends to a type, from one of several types. -/
def Enters (lowerer : Lowerer) (nodes : List (Option Node)) (place : Node) : Prop :=
  ∃ node, some node ∈ nodes ∧ Node.Within lowerer.entered place node

/-! ## Unions that come down to a type -/

theorem ComesDownTo.descriptor_eq {inner node : Node} (comes : lowerer.ComesDownTo inner node) :
    lowerer.descriptor node = lowerer.descriptor inner := by
  induction comes with
  | single shape => rw [descriptor_union, shape]
  | through shape _ induction =>
      rw [descriptor_union, shape]
      exact induction

theorem hides_union_iff {source : Path} {members : List Node} :
    lowerer.Hides kind (.union source members) ↔
      ∃ member, lowerer.unionShape members = .single member ∧
        (member.collectionKind? = some kind ∨ lowerer.Hides kind member) := by
  constructor
  · rintro ⟨inner, comes, collection⟩
    cases comes with
    | single shape => exact ⟨inner, shape, .inl collection⟩
    | through shape further => exact ⟨_, shape, .inr ⟨inner, further, collection⟩⟩
  · rintro ⟨member, shape, collection | ⟨inner, further, collection⟩⟩
    · exact ⟨member, .single shape, collection⟩
    · exact ⟨inner, .through shape further, collection⟩

theorem Hides.collectionKind?_eq_none {node : Node} (hides : lowerer.Hides kind node) :
    node.collectionKind? = none := by
  obtain ⟨inner, comes, _⟩ := hides
  cases comes <;> rfl

theorem kind_descriptor_of_collectionKind? {node : Node}
    (written : node.collectionKind? = some kind) : (lowerer.descriptor node).kind = kind := by
  cases node with
  | array | map => exact Option.some.inj written
  | _ => cases written

/-- The descriptor of a type is a list or a dictionary exactly if the type is one or hides one. -/
theorem kind_descriptor_iff (collection : kind = .array ∨ kind = .map) (node : Node) :
    (lowerer.descriptor node).kind = kind ↔
      node.collectionKind? = some kind ∨ lowerer.Hides kind node := by
  have other {different : TypeKind} (lowered : different = kind)
      (plain : (different == .array || different == .map) = false) : False := by
    subst lowered
    rcases collection with rfl | rfl <;> cases plain
  constructor
  · intro lowered
    induction node using Node.induction with
    | array | map => exact .inl (congrArg some lowered)
    | union source members induction =>
        rw [descriptor_union] at lowered
        cases shape : lowerer.unionShape members with
        | single member =>
            rw [shape] at lowered
            have listed : member ∈ members :=
              mem_of_mem_unionShape lowerer (shape ▸ List.mem_cons_self)
            exact .inr (hides_union_iff.mpr ⟨member, shape, induction member listed lowered⟩)
        | optional | empty | several =>
            rw [shape] at lowered
            exact (other lowered rfl).elim
    | base source name =>
        rw [descriptor] at lowered
        split at lowered <;> exact (other lowered rfl).elim
    | reference source name =>
        rw [descriptor, reference] at lowered
        split at lowered <;> exact (other lowered rfl).elim
    | literal | constant | intersection | tuple => exact (other lowered rfl).elim
  · rintro (written | ⟨inner, comes, written⟩)
    · exact kind_descriptor_of_collectionKind? written
    · rw [comes.descriptor_eq]
      exact kind_descriptor_of_collectionKind? written

/-! ## Wrapping -/

/-- Where every collection of a kind is wrapped, and nothing but collections is, a type is still
lowered to one exactly if it hides one. -/
theorem kind_wrap_iff (collection : kind = .array ∨ kind = .map) {wrapping : Option Wrapping}
    {node : Node} (wraps : node.collectionKind? = some kind → wrapping ≠ none)
    (only : wrapping ≠ none → node.collectionKind? ≠ none) :
    (wrap wrapping (lowerer.descriptor node)).kind = kind ↔ lowerer.Hides kind node := by
  cases wrapping with
  | some record =>
      have wrapper : TypeKind.wrapper ≠ kind := by
        rcases collection with rfl | rfl <;> decide
      have shown : ¬lowerer.Hides kind node :=
        fun hides => only (Option.some_ne_none record) hides.collectionKind?_eq_none
      exact iff_of_false wrapper shown
  | none =>
      rw [wrap, kind_descriptor_iff collection, or_iff_right fun written => wraps written rfl]

theorem kind_wrap_mapWrapping?_iff (wrapsArrays : lowerer.profile.wrapsMapArrays = true)
    (value : Node) :
    (wrap (lowerer.mapWrapping? value) (lowerer.descriptor value)).kind = .array ↔
      lowerer.Hides .array value := by
  refine kind_wrap_iff (.inl rfl) ?_ ?_
  · intro written
    cases value with
    | array => simp [mapWrapping?, wrapsArrays]
    | _ => cases written
  · intro wrapped
    cases value with
    | array => exact Option.some_ne_none _
    | _ => exact absurd rfl wrapped

theorem kind_memberDescriptor_iff
    (wrapsCollections : lowerer.profile.wrapsUnionCollections = true)
    (collection : kind = .array ∨ kind = .map) (member : Node) :
    (lowerer.memberDescriptor member).kind = kind ↔ lowerer.Hides kind member := by
  refine kind_wrap_iff collection ?_ ?_
  · intro written
    cases member with
    | array | map => simp [memberWrapping?, wrapsCollections]
    | _ => cases written
  · intro wrapped
    cases member with
    | array | map => exact Option.some_ne_none _
    | _ => simp [memberWrapping?] at wrapped

/-! ## Where dictionaries come from -/

/-- Every dictionary in a descriptor is lowered from a dictionary that counts. -/
def MapsFrom (lowerer : Lowerer) (counts : Node → Prop) (descriptor : Descriptor) : Prop :=
  ∀ inner : Descriptor, inner.Within descriptor → inner.kind = .map →
    ∃ source key value, counts (.map source key value) ∧
      inner = lowerer.descriptor (.map source key value)

section MapsFrom

variable {counts : Node → Prop}

theorem MapsFrom.mono {counts' : Node → Prop} {descriptor : Descriptor}
    (maps : lowerer.MapsFrom counts descriptor) (more : ∀ place, counts place → counts' place) :
    lowerer.MapsFrom counts' descriptor := by
  intro inner within dictionary
  obtain ⟨source, key, value, counted, equal⟩ := maps inner within dictionary
  exact ⟨source, key, value, more _ counted, equal⟩

theorem mapsFrom_of_arguments {descriptor : Descriptor} (other : (descriptor.kind == .map) = false)
    (each : ∀ argument ∈ descriptor.arguments, lowerer.MapsFrom counts argument) :
    lowerer.MapsFrom counts descriptor := by
  intro inner within dictionary
  rcases Descriptor.within_iff.mp within with rfl | ⟨argument, listed, within⟩
  · simp [dictionary] at other
  · exact each argument listed inner within dictionary

theorem mapsFrom_scalar (category : Category) :
    lowerer.MapsFrom counts (lowerer.scalar category) :=
  mapsFrom_of_arguments rfl (List.forall_mem_nil _)

theorem mapsFrom_anything : lowerer.MapsFrom counts lowerer.anything :=
  mapsFrom_of_arguments rfl (List.forall_mem_nil _)

theorem MapsFrom.mapKey {key : Descriptor} (maps : lowerer.MapsFrom counts key) :
    lowerer.MapsFrom counts (lowerer.mapKey key) := by
  rw [Lowerer.mapKey]
  split
  · exact mapsFrom_scalar .string
  · exact maps

theorem MapsFrom.wrap {wrapped : Descriptor} (maps : lowerer.MapsFrom counts wrapped)
    (wrapping : Option Wrapping) : lowerer.MapsFrom counts (wrap wrapping wrapped) := by
  cases wrapping with
  | none => exact maps
  | some record => exact mapsFrom_of_arguments rfl (List.forall_mem_nil _)

theorem mapsFrom_map {source : Path} {key value : Node} (counted : counts (.map source key value))
    (inKey : lowerer.MapsFrom counts (lowerer.descriptor key))
    (inValue : lowerer.MapsFrom counts (lowerer.descriptor value)) :
    lowerer.MapsFrom counts (lowerer.descriptor (.map source key value)) := by
  intro inner within dictionary
  rcases Descriptor.within_iff.mp within with rfl | ⟨argument, listed, within⟩
  · exact ⟨source, key, value, counted, rfl⟩
  · rcases List.mem_pair.mp listed with rfl | rfl
    · exact inKey.mapKey inner within dictionary
    · exact inValue.wrap _ inner within dictionary

theorem mapsFrom_union {source : Path} {members : List Node}
    (each : ∀ member ∈ (lowerer.unionShape members).members,
      lowerer.MapsFrom counts (lowerer.descriptor member)) :
    lowerer.MapsFrom counts (lowerer.descriptor (.union source members)) := by
  rw [descriptor_union]
  cases shape : lowerer.unionShape members with
  | single member => exact each member (shape ▸ List.mem_cons_self)
  | optional member =>
      have inside := each member (shape ▸ List.mem_cons_self)
      exact mapsFrom_of_arguments rfl (List.forall_mem_singleton.mpr inside)
  | empty => exact mapsFrom_anything
  | several different => exact mapsFrom_of_arguments rfl (List.forall_mem_nil _)

end MapsFrom

/-- Every dictionary in the descriptor of a type is lowered from one that lowering enters. -/
theorem mapsFrom_descriptor (node : Node) :
    lowerer.MapsFrom (fun place => Node.Within lowerer.entered place node)
      (lowerer.descriptor node) := by
  have deeper {part node : Node} (listed : part ∈ lowerer.entered node)
      (maps : lowerer.MapsFrom (fun place => Node.Within lowerer.entered place part)
        (lowerer.descriptor part)) :
      lowerer.MapsFrom (fun place => Node.Within lowerer.entered place node)
        (lowerer.descriptor part) :=
    maps.mono fun _ within => .part listed within
  induction node using Node.induction with
  | base source name =>
      rw [descriptor]
      split
      · exact mapsFrom_scalar _
      · exact mapsFrom_anything
  | reference source name =>
      rw [descriptor, reference]
      split
      · exact mapsFrom_scalar _
      · exact mapsFrom_of_arguments rfl (List.forall_mem_nil _)
  | array source element induction =>
      refine mapsFrom_of_arguments rfl (List.forall_mem_singleton.mpr ?_)
      exact deeper List.mem_cons_self induction
  | map source key value inductionKey inductionValue =>
      exact mapsFrom_map .self (deeper List.mem_cons_self inductionKey)
        (deeper (List.mem_cons_of_mem _ List.mem_cons_self) inductionValue)
  | union source members induction =>
      exact mapsFrom_union fun member listed =>
        deeper listed (induction member (mem_of_mem_unionShape lowerer listed))
  | literal | intersection => exact mapsFrom_anything
  | constant source value => exact mapsFrom_of_arguments rfl (List.forall_mem_nil _)
  | tuple source members => exact mapsFrom_scalar .array

/-! ## Lowered collections -/

/-- A definition that lowering adds is given at a type that it enters. -/
theorem exists_entered_of_added {nodes : List (Option Node)} {before : Ledger} {name : String}
    {composite : Composite}
    (listed : (name, composite) ∈ ((lowerer.lowerAll nodes).run before).2.composites)
    (added : (name, composite) ∉ before.composites) :
    ∃ place, lowerer.Enters nodes place ∧ lowerer.Gives place name composite := by
  rcases (growth_lowerAll nodes before).1.mem_composites listed with old | ⟨_, ⟨gives, _⟩, _⟩
  · exact absurd old added
  · obtain ⟨node, given, place, within, gives⟩ := gives
    exact ⟨place, ⟨node, given, within⟩, gives⟩

theorem mapsFrom_of_returned {nodes : List (Option Node)} {before : Ledger} {type : Descriptor}
    (returned : type ∈ ((lowerer.lowerAll nodes).run before).1) :
    lowerer.MapsFrom (lowerer.Enters nodes) type := by
  rw [run_lowerAll] at returned
  obtain ⟨node, given, rfl⟩ := List.mem_map.mp returned
  cases node with
  | none => exact mapsFrom_anything
  | some node => exact (mapsFrom_descriptor node).mono fun _ within => ⟨node, given, within⟩

theorem mapsFrom_of_added {nodes : List (Option Node)} {before : Ledger}
    {entry : String × Composite} {type : Descriptor}
    (listed : entry ∈ ((lowerer.lowerAll nodes).run before).2.composites)
    (added : entry ∉ before.composites) (inside : type ∈ entry.2.descriptors) :
    lowerer.MapsFrom (lowerer.Enters nodes) type := by
  obtain ⟨place, ⟨node, given, whole⟩, gives⟩ := exists_entered_of_added listed added
  obtain ⟨part, entered, wrapping, rfl⟩ := exists_entered_of_gives gives inside
  have maps : lowerer.MapsFrom (lowerer.Enters nodes) (lowerer.descriptor part) :=
    (mapsFrom_descriptor part).mono fun _ within =>
      ⟨node, given, within.trans (.trans (.part entered .self) whole)⟩
  exact maps.wrap wrapping

/-- Where collections in unions are wrapped, a variant that lowering registers is a list or a
dictionary exactly if its member is a union that comes down to one.  Where lists in dictionaries are
wrapped, a dictionary that is returned or stands in what is registered has lists as values exactly
if the type of its values is a union that comes down to a list. -/
theorem lowerAll_collections (lowerer : Lowerer) (nodes : List (Option Node)) (before : Ledger) :
    let (returned, after) := (lowerer.lowerAll nodes).run before
    (lowerer.profile.wrapsUnionCollections = true →
      ∀ name own variants, (name, .union own variants) ∈ after.composites →
        (name, .union own variants) ∉ before.composites →
        ∃ source members, lowerer.Enters nodes (.union source members) ∧
          .union own variants = lowerer.unionOf (lowerer.distinctMembers members) ∧
          ∀ member ∈ lowerer.distinctMembers members,
            ((lowerer.memberDescriptor member).kind = .array ↔ lowerer.Hides .array member) ∧
            ((lowerer.memberDescriptor member).kind = .map ↔ lowerer.Hides .map member)) ∧
    (lowerer.profile.wrapsMapArrays = true →
      ∀ descriptor : Descriptor, descriptor.kind = .map →
        ((∃ type ∈ returned, descriptor.Within type) ∨
          ∃ entry ∈ after.composites, entry ∉ before.composites ∧
            ∃ type ∈ entry.2.descriptors, descriptor.Within type) →
        ∃ source key value, lowerer.Enters nodes (.map source key value) ∧
          descriptor = lowerer.descriptor (.map source key value) ∧
          ∃ keyType valueType, descriptor = .map keyType valueType ∧
            (valueType.kind = .array ↔ lowerer.Hides .array value)) := by
  constructor
  · intro wrapsCollections name own variants listed added
    obtain ⟨place, enters, gives⟩ := exists_entered_of_added listed added
    cases gives with
    | @union source members several =>
        refine ⟨source, members, enters, rfl, fun member _ => ⟨?_, ?_⟩⟩
        · exact kind_memberDescriptor_iff wrapsCollections (.inl rfl) member
        · exact kind_memberDescriptor_iff wrapsCollections (.inr rfl) member
  · intro wrapsArrays descriptor dictionary stands
    have lowered : ∃ source key value, lowerer.Enters nodes (.map source key value) ∧
        descriptor = lowerer.descriptor (.map source key value) := by
      rcases stands with ⟨type, returned, within⟩ | ⟨entry, listed, added, type, inside, within⟩
      · exact mapsFrom_of_returned returned descriptor within dictionary
      · exact mapsFrom_of_added listed added inside descriptor within dictionary
    obtain ⟨source, key, value, enters, lowered⟩ := lowered
    exact ⟨source, key, value, enters, lowered, _, _, lowered,
      kind_wrap_mapWrapping?_iff wrapsArrays value⟩

/-- In proto, a variant that is a list and a dictionary of lists tell of unions with a single
list. -/
theorem lowerAll_collections_hidden :
    let lowerer : Lowerer := .ofModel default Language.proto.profile false
    let string : Node := .base (.root "string") "string"
    let lone : Node := .union (.root "lone") [.array (.root "array") string]
    let nodes := [some (.map (.root "map") string lone),
      some (.union (.root "union") [string, lone])]
    (∃ source members, lowerer.Enters nodes (.union source members) ∧
        ∃ member ∈ lowerer.distinctMembers members, lowerer.Hides .array member) ∧
      ∃ source key value, lowerer.Enters nodes (.map source key value) ∧
        lowerer.Hides .array value := by
  intro lowerer string lone nodes
  let text : Descriptor := .scalar .string "string"
  let variants : List Variant := [⟨"String", text⟩, ⟨"Union", .array text⟩]
  have run : (lowerer.lowerAll nodes).run .empty =
      ([.map text (.array text), .ofName .union "Or_String_Union"],
        ⟨[("Or_String_Union", .union "Or_String_Union" variants)],
          [.registered "Or_String_Union"]⟩) := by cbv
  have general := lowerAll_collections lowerer nodes .empty
  rw [run] at general
  obtain ⟨unions, dictionaries⟩ := general
  constructor
  · obtain ⟨source, members, enters, equal, each⟩ :=
      unions rfl "Or_String_Union" "Or_String_Union" variants List.mem_cons_self List.not_mem_nil
    have listed : (⟨"Union", .array text⟩ : Variant) ∈ (lowerer.distinctMembers members).map
        fun member => ⟨lowerer.ident member, lowerer.memberDescriptor member⟩ := by
      rw [← (Composite.union.inj equal).2]
      exact .tail _ (.head _)
    obtain ⟨member, among, lowered⟩ := List.mem_map.mp listed
    have array : (lowerer.memberDescriptor member).kind = .array := by
      rw [(Variant.mk.inj lowered).2]
      rfl
    exact ⟨source, members, enters, member, among, (each member among).1.mp array⟩
  · obtain ⟨source, key, value, enters, _, keyType, valueType, equal, hides⟩ :=
      dictionaries rfl (.map text (.array text)) rfl
        (.inl ⟨_, List.mem_cons_self, .self⟩)
    cases equal
    exact ⟨source, key, value, enters, hides.mp rfl⟩

/-- In proto, a union of one list is lowered to a list where the language lacks lists: as a variant
of a union and as what the values of a dictionary are. -/
theorem lower_hidden_collections :
    let lowerer : Lowerer := .ofModel default Language.proto.profile false
    let string : Node := .base (.root "string") "string"
    let lone : Node := .union (.root "lone") [.array (.root "array") string]
    let dictionary : Node := .map (.root "map") string lone
    let union : Node := .union (.root "union") [string, lone]
    lowerer.profile.wrapsUnionCollections = true ∧ lowerer.profile.wrapsMapArrays = true ∧
      (¬∀ name own variants,
        (name, .union own variants) ∈ ((lowerer.lower (some union)).run .empty).2.composites →
          ∀ variant ∈ variants, variant.type.kind ≠ .array ∧ variant.type.kind ≠ .map) ∧
      ¬∀ keyType valueType : Descriptor,
        ((lowerer.lower (some dictionary)).run .empty).1 = .map keyType valueType →
          valueType.kind ≠ .array := by
  intro lowerer string lone dictionary union
  let text : Descriptor := .scalar .string "string"
  refine ⟨rfl, rfl, fun claim => ?_, fun claim => ?_⟩
  · have composites : ((lowerer.lower (some union)).run .empty).2.composites =
        [("Or_String_Union", .union "Or_String_Union"
          [⟨"String", text⟩, ⟨"Union", .array text⟩])] := by cbv
    exact (claim _ _ _ (composites ▸ List.mem_cons_self) _ (.tail _ (.head _))).1 rfl
  · have lowered : ((lowerer.lower (some dictionary)).run .empty).1 =
        .map text (.array text) := by cbv
    exact claim _ _ lowered rfl

end Lowerer
end ProtocolCodegen
