import Mathlib
import ProtocolCodegen.Proofs.Lowering.Shapes
import ProtocolCodegen.Proofs.Text.Pieces
import ProtocolCodegen.Target.Language

/-!
# Identity of unions

A union is known by its name, which joins the type names of its members.  Where a type name contains
the separator itself, unions of different members can have one name.
-/

namespace ProtocolCodegen

/-- A union of references of which none is dropped and two have different type names. -/
structure ReferenceUnion (lowerer : Lowerer) where
  /-- Where the union stands. -/
  source : Path
  /-- Where the references stand and what they refer to. -/
  references : List (Path × String)
  kept : ∀ reference ∈ references,
    lowerer.includesProposed = true ∨ lowerer.proposed.get? reference.2 ≠ some true
  several : ∃ first ∈ references, ∃ second ∈ references,
    lowerer.profile.naming.typeName first.2 ≠ lowerer.profile.naming.typeName second.2

namespace ReferenceUnion

variable {lowerer : Lowerer} (union : ReferenceUnion lowerer)

/-- The members of the union. -/
def members : List Node :=
  union.references.map fun reference => .reference reference.1 reference.2

/-- The union itself. -/
def node : Node :=
  .union union.source union.members

/-- The type names of the members. -/
def typeNames : List String :=
  union.references.map fun reference => lowerer.profile.naming.typeName reference.2

/-- The words of the type names, which underscores separate.  Every type name counts once, and they
stand in order. -/
def words : List String :=
  (Text.sortedSet union.typeNames).flatMap (Text.splitOn '_')

theorem map_ident_members : union.members.map lowerer.ident = union.typeNames := by
  rw [members, typeNames, List.map_map]
  rfl

theorem filter_keeps_members : union.members.filter lowerer.keeps = union.members := by
  refine List.filter_eq_self.mpr fun member listed => ?_
  obtain ⟨reference, among, rfl⟩ := List.mem_map.mp listed
  have kept := union.kept reference among
  cases proposed : lowerer.proposed.get? reference.2 <;>
    simp_all [Lowerer.keeps, Lowerer.isProposedReference, Node.isNull]

theorem map_ident_distinctMembers :
    (lowerer.distinctMembers union.members).map lowerer.ident =
      Text.sortedSet union.typeNames := by
  rw [Lowerer.distinctMembers, filter_keeps_members, Text.map_distinctBy_sortedBy,
    map_ident_members]

theorem sortedSet_typeNames_several : 2 ≤ (Text.sortedSet union.typeNames).length := by
  obtain ⟨first, listed, second, listed', different⟩ := union.several
  exact Text.two_le_length_sortedSet (List.mem_map_of_mem listed) (List.mem_map_of_mem listed')
    different

theorem descriptor_node :
    lowerer.descriptor union.node =
      .ofName .union (lowerer.profile.naming.unionName (Text.sortedSet union.typeNames)) := by
  have several : 2 ≤ (lowerer.distinctMembers union.members).length := by
    rw [← List.length_map lowerer.ident, map_ident_distinctMembers]
    exact union.sortedSet_typeNames_several
  rw [node, Lowerer.descriptor_union, Lowerer.unionShape_eq_several lowerer several]
  simp only [Lowerer.unionName, map_ident_distinctMembers]

theorem words_of_no_underscore (free : ∀ name ∈ union.typeNames, '_' ∉ name.toList) :
    union.words = Text.sortedSet union.typeNames :=
  Text.flatMap_splitOn_of_not_mem fun name listed => free name (Text.mem_sortedSet.mp listed)

theorem descriptor_node_eq_iff (separated : lowerer.profile.naming.unionSeparator = "_")
    (first second : ReferenceUnion lowerer) :
    lowerer.descriptor first.node = lowerer.descriptor second.node ↔
      first.words = second.words := by
  have nonempty (union : ReferenceUnion lowerer) : Text.sortedSet union.typeNames ≠ [] :=
    List.ne_nil_of_length_pos (by have := union.sortedSet_typeNames_several; omega)
  have underscore : ("_" : String) = String.singleton '_' := rfl
  rw [descriptor_node, descriptor_node, words, words,
    ← Text.intercalate_eq_iff '_' (nonempty first) (nonempty second)]
  simp [Descriptor.ofName, Naming.unionName, separated, underscore]

end ReferenceUnion

theorem Language.unionSeparator_profile (language : Language) :
    language.profile.naming.unionSeparator = "_" := by
  cases language <;> rfl

/-- Two unions of references are lowered to one union exactly if the type names of their members,
each taken once and in order, have the same words.  That is so if the sets of type names are equal,
and only then where no type name contains an underscore. -/
theorem Language.lower_unions_eq_iff (language : Language) (model : Model)
    (includesProposed : Bool)
    (first second : ReferenceUnion (.ofModel model language.profile includesProposed))
    (before before' : Ledger) :
    let lowerer : Lowerer := .ofModel model language.profile includesProposed
    let lowered := ((lowerer.lower (some first.node)).run before).1
    let lowered' := ((lowerer.lower (some second.node)).run before').1
    let same := ∀ name, name ∈ first.typeNames ↔ name ∈ second.typeNames
    lowered.kind = .union ∧ lowered'.kind = .union ∧
      (lowered = lowered' ↔ first.words = second.words) ∧
      (same → lowered = lowered') ∧
      ((∀ name ∈ first.typeNames ++ second.typeNames, '_' ∉ name.toList) →
        (lowered = lowered' ↔ same)) := by
  intro lowerer lowered lowered' same
  have lowered_eq : lowered = lowerer.descriptor first.node := rfl
  have lowered_eq' : lowered' = lowerer.descriptor second.node := rfl
  have identity : lowered = lowered' ↔ first.words = second.words :=
    ReferenceUnion.descriptor_node_eq_iff language.unionSeparator_profile first second
  refine ⟨?_, ?_, identity, ?_, ?_⟩
  · rw [lowered_eq, first.descriptor_node]
    rfl
  · rw [lowered_eq', second.descriptor_node]
    rfl
  · intro equal
    rw [identity, ReferenceUnion.words, ReferenceUnion.words, Text.sortedSet_eq_iff.mpr equal]
  · intro free
    rw [identity, first.words_of_no_underscore fun name listed =>
        free name (List.mem_append_left _ listed),
      second.words_of_no_underscore fun name listed => free name (List.mem_append_right _ listed)]
    exact Text.sortedSet_eq_iff

/-- In proto, neither the order of references nor a repeated one has an effect on a union. -/
theorem Language.lower_unions_eq_iff_reordered :
    let lowerer : Lowerer := .ofModel default Language.proto.profile false
    let first : ReferenceUnion lowerer :=
      ⟨.root "first", [(.root "a", "Range"), (.root "b", "Position")], fun _ _ => .inr nofun,
        _, .head _, _, .tail _ (.head _), by cbv⟩
    let second : ReferenceUnion lowerer :=
      ⟨.root "second", [(.root "a", "Position"), (.root "b", "Range"), (.root "c", "Range")],
        fun _ _ => .inr nofun, _, .head _, _, .tail _ (.head _), by cbv⟩
    ((lowerer.lower (some first.node)).run .empty).1 =
      ((lowerer.lower (some second.node)).run .empty).1 := by
  intro lowerer first second
  obtain ⟨_, _, _, equal, _⟩ := lower_unions_eq_iff .proto default false first second .empty .empty
  refine equal fun name => ?_
  have names : first.typeNames = ["Range", "Position"] := by cbv
  have names' : second.typeNames = ["Position", "Range", "Range"] := by cbv
  rw [names, names']
  simp only [List.mem_cons, List.not_mem_nil, or_false, or_self]
  exact or_comm

/-- In go, two unions of different members are lowered to one. -/
theorem Language.lower_eq_of_different_unions :
    let lowerer : Lowerer := .ofModel default Language.go.profile false
    let first : ReferenceUnion lowerer :=
      ⟨.root "first", [(.root "a", "A_B"), (.root "b", "C")], fun _ _ => .inr nofun,
        _, .head _, _, .tail _ (.head _), by cbv⟩
    let second : ReferenceUnion lowerer :=
      ⟨.root "second", [(.root "a", "A"), (.root "b", "B_C")], fun _ _ => .inr nofun,
        _, .head _, _, .tail _ (.head _), by cbv⟩
    (∀ reference ∈ first.references ++ second.references,
        lowerer.profile.overrides.get? reference.2 = none) ∧
      ((lowerer.lower (some first.node)).run .empty).1 =
        ((lowerer.lower (some second.node)).run .empty).1 ∧
      "C" ∈ first.typeNames ∧ "C" ∉ second.typeNames := by
  intro lowerer first second
  have names : first.typeNames = ["A_B", "C"] := by cbv
  have names' : second.typeNames = ["A", "B_C"] := by cbv
  rw [names, names']
  exact ⟨by decide, by cbv, by decide, by decide⟩

end ProtocolCodegen
