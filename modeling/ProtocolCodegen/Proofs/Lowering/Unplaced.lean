import ProtocolCodegen.Proofs.Lowering.MemberOrder
import ProtocolCodegen.Proofs.Lowering.Necessity
import ProtocolCodegen.Proofs.Schema.Unplaced

/-!
# Lowering types without places

Lowering does not look at where types stand.  Without its place a type has the same descriptor and
leaves the same ledger, and the same definitions are given within it.
-/

namespace ProtocolCodegen

namespace Node

theorem isNull_unplaced (node : Node) : node.unplaced.isNull = node.isNull := by
  cases node <;> rfl

theorem optionalOf?_unplaced (members : List Node) :
    optionalOf? (members.map unplaced) = (optionalOf? members).map unplaced := by
  have optional : areOptional (members.map unplaced) = areOptional members := by
    simp only [areOptional, List.length_map, List.any_map, Function.comp_def, isNull_unplaced]
  rw [optionalOf?, optionalOf?, optional, List.find?_map]
  simp only [Function.comp_def, isNull_unplaced]
  split <;> rfl

end Node

namespace Lowerer

variable (lowerer : Lowerer)

theorem reorders_unplaced (node : Node) : lowerer.Reorders node node.unplaced := by
  induction node using Node.induction with
  | base => exact .base
  | reference => exact .reference
  | array _ _ induction => exact .array induction
  | map _ _ _ inductionKey inductionValue => exact .map inductionKey inductionValue
  | literal => exact .literal
  | constant => exact .constant
  | union source members induction =>
      rw [Node.unplaced, Node.unplacedMembers_eq_map]
      refine .union (.refl members) (.inl rfl) ?_
      exact List.forall₂_map_right_iff.mpr (List.forall₂_same.mpr induction)
  | intersection => exact .intersection
  | tuple => exact .tuple

theorem lowersAlike_unplaced (node : Node) : lowerer.LowersAlike node node.unplaced :=
  (lowerer.reorders_unplaced node).lowersAlike

theorem descriptor_unplaced (node : Node) :
    lowerer.descriptor node.unplaced = lowerer.descriptor node :=
  (lowerer.lowersAlike_unplaced node).descriptor

theorem map_descriptor_unplaced (node : Option Node) :
    (node.map Node.unplaced).map lowerer.descriptor = node.map lowerer.descriptor := by
  cases node with
  | none => rfl
  | some node => exact congrArg some (lowerer.descriptor_unplaced node)

theorem descriptorOf_unplaced (node : Option Node) :
    lowerer.descriptorOf (node.map Node.unplaced) = lowerer.descriptorOf node := by
  rw [descriptorOf, descriptorOf, map_descriptor_unplaced]

theorem enrollOf_unplaced (node : Option Node) (ledger : Ledger) :
    lowerer.enrollOf (node.map Node.unplaced) ledger = lowerer.enrollOf node ledger := by
  cases node with
  | none => rfl
  | some node => exact (lowerer.lowersAlike_unplaced node).enroll ledger

/-! ## What is given within a type -/

theorem distinctMembers_unplaced (members : List Node) :
    lowerer.distinctMembers (members.map Node.unplaced) =
      (lowerer.distinctMembers members).map Node.unplaced := by
  have keeps : lowerer.keeps ∘ Node.unplaced = lowerer.keeps :=
    funext fun node => (lowerer.lowersAlike_unplaced node).keeps
  have idents (node : Node) : lowerer.ident node.unplaced = lowerer.ident node :=
    (lowerer.lowersAlike_unplaced node).ident
  rw [distinctMembers, distinctMembers, List.filter_map, keeps, Text.sortedBy_map,
    Text.distinctBy_map]
  simp only [idents]

theorem unionShape_unplaced (members : List Node) :
    lowerer.unionShape (members.map Node.unplaced) =
      (lowerer.unionShape members).map Node.unplaced := by
  rw [unionShape, unionShape, Node.optionalOf?_unplaced, distinctMembers_unplaced]
  cases Node.optionalOf? members with
  | some member => rfl
  | none => rcases lowerer.distinctMembers members with _ | ⟨_, _ | ⟨_, _⟩⟩ <;> rfl

theorem entered_unplaced (node : Node) :
    lowerer.entered node.unplaced = (lowerer.entered node).map Node.unplaced := by
  cases node with
  | union source members =>
      rw [Node.unplaced, Node.unplacedMembers_eq_map, entered, entered, unionShape_unplaced]
      cases lowerer.unionShape members <;> rfl
  | _ => rfl

theorem within_unplaced_iff {inner' node : Node} :
    Node.Within lowerer.entered inner' node.unplaced ↔
      ∃ inner, Node.Within lowerer.entered inner node ∧ inner.unplaced = inner' := by
  constructor
  · intro within
    generalize same : node.unplaced = node' at within
    induction within generalizing node with
    | self => exact ⟨node, .self, same⟩
    | part listed _ induction =>
        rw [← same, entered_unplaced] at listed
        obtain ⟨part, among, same⟩ := List.mem_map.mp listed
        obtain ⟨inner, within, unplaced⟩ := induction same
        exact ⟨inner, .part among within, unplaced⟩
  · rintro ⟨inner, within, rfl⟩
    induction within with
    | self => exact .self
    | part listed _ induction =>
        refine .part ?_ induction
        rw [entered_unplaced]
        exact List.mem_map_of_mem listed

theorem gives_map_iff {source : Path} {key value : Node} {name : String} {composite : Composite} :
    lowerer.Gives (.map source key value) name composite ↔
      ∃ record, lowerer.mapWrapping? value = some record ∧ name = record.name ∧
        composite = .wrapper record.name record.field (lowerer.descriptor value) := by
  constructor
  · intro gives
    cases gives with
    | value wrapped => exact ⟨_, wrapped, rfl, rfl⟩
  · rintro ⟨record, wrapped, rfl, rfl⟩
    exact .value wrapped

theorem gives_union_iff {source : Path} {members : List Node} {name : String}
    {composite : Composite} :
    lowerer.Gives (.union source members) name composite ↔
      2 ≤ (lowerer.distinctMembers members).length ∧
        (name = lowerer.unionName (lowerer.distinctMembers members) ∧
            composite = lowerer.unionOf (lowerer.distinctMembers members) ∨
          ∃ member ∈ lowerer.distinctMembers members, ∃ record,
            lowerer.memberWrapping? member = some record ∧ name = record.name ∧
              composite = .wrapper record.name record.field (lowerer.descriptor member)) := by
  constructor
  · intro gives
    cases gives with
    | union several => exact ⟨several, .inl ⟨rfl, rfl⟩⟩
    | member several listed wrapped =>
        exact ⟨several, .inr ⟨_, listed, _, wrapped, rfl, rfl⟩⟩
  · rintro ⟨several, ⟨rfl, rfl⟩ | ⟨member, listed, record, wrapped, rfl, rfl⟩⟩
    · exact .union several
    · exact .member several listed wrapped

theorem gives_unplaced_iff {node : Node} {name : String} {composite : Composite} :
    lowerer.Gives node.unplaced name composite ↔ lowerer.Gives node name composite := by
  have alike := lowerer.lowersAlike_unplaced
  cases node with
  | map source key value =>
      rw [Node.unplaced, gives_map_iff, gives_map_iff, (alike value).mapWrapping,
        (alike value).descriptor]
  | union source members =>
      have each : List.Forall₂ lowerer.LowersAlike (lowerer.distinctMembers members)
          ((lowerer.distinctMembers members).map Node.unplaced) :=
        List.forall₂_map_right_iff.mpr (List.forall₂_same.mpr fun member _ => alike member)
      rw [Node.unplaced, Node.unplacedMembers_eq_map, gives_union_iff, gives_union_iff,
        distinctMembers_unplaced, LowersAlike.unionName each, LowersAlike.unionOf each,
        List.length_map]
      simp only [List.mem_map, exists_exists_and_eq_and, (alike _).memberWrapping,
        (alike _).descriptor]
  | _ =>
      constructor
      · intro gives
        cases gives
      · intro gives
        cases gives

theorem givesWithin_unplaced_iff {node : Node} {name : String} {composite : Composite} :
    lowerer.GivesWithin lowerer.entered node.unplaced name composite ↔
      lowerer.GivesWithin lowerer.entered node name composite := by
  simp only [GivesWithin, within_unplaced_iff, exists_exists_and_eq_and, gives_unplaced_iff]

theorem sparesKeys_unplaced {node : Node} (spares : lowerer.SparesKeys node) :
    lowerer.SparesKeys node.unplaced := by
  intro source key' value' within replaced name composite given
  obtain ⟨inner, inside, same⟩ := lowerer.within_unplaced_iff.mp within
  cases inner with
  | map source key value =>
      obtain ⟨-, rfl, rfl⟩ := Node.map.inj same
      rw [descriptor_unplaced] at replaced
      exact spares _ key value inside replaced name composite
        (lowerer.givesWithin_unplaced_iff.mp given)
  | _ => cases same

end Lowerer

end ProtocolCodegen
