import ProtocolCodegen.Lowering
import ProtocolCodegen.Proofs.Schema.Subnodes
import ProtocolCodegen.Proofs.Text.Order

/-!
# Shapes of unions

What a union comes down to depends on its members alone, whatever is carried along with them.  The
members that count, told apart by their identifiers, decide between nothing, a single member and a
union of several.
-/

namespace ProtocolCodegen

/-- A shape with changed members. -/
def UnionShape.map {α β : Type} (change : α → β) : UnionShape α → UnionShape β
  | .optional member => .optional (change member)
  | .empty => .empty
  | .single member => .single (change member)
  | .several members => .several (members.map change)

/-- The members of a shape. -/
def UnionShape.members {α : Type} : UnionShape α → List α
  | .optional member | .single member => [member]
  | .empty => []
  | .several members => members

namespace Lowerer

variable (lowerer : Lowerer)

/-- The members of a union that count, in the order of their identifiers; of equal identifiers the
first is kept. -/
def distinctMembers (members : List Node) : List Node :=
  Text.distinctBy lowerer.ident (Text.sortedBy lowerer.ident (members.filter lowerer.keeps))

/-- What a union of members comes down to, with nothing carried along. -/
def unionShape (members : List Node) : UnionShape Node :=
  match Node.optionalOf? members with
  | some member => .optional member
  | none =>
      match lowerer.distinctMembers members with
      | [] => .empty
      | [member] => .single member
      | different => .several different

theorem map_fst_carry {α : Type} (carry : Node → α) (members : List Node) :
    (members.map fun node => (node, carry node)).map (·.1) = members := by
  rw [List.map_map]
  exact List.map_id members

theorem optionalMember?_map {α : Type} (carry : Node → α) (members : List Node) :
    optionalMember? (members.map fun node => (node, carry node)) =
      (Node.optionalOf? members).map fun node => (node, carry node) := by
  rw [optionalMember?, Node.optionalOf?, map_fst_carry]
  split
  · rw [List.find?_map]
    rfl
  · rfl

theorem distinctBy_sortedBy_map {α : Type} (carry : Node → α) (members : List Node) :
    Text.distinctBy (fun member => lowerer.ident member.1)
        (Text.sortedBy (fun member => lowerer.ident member.1)
          (members.map fun node => (node, carry node))) =
      (Text.distinctBy lowerer.ident (Text.sortedBy lowerer.ident members)).map
        fun node => (node, carry node) := by
  rw [Text.sortedBy_map, Text.distinctBy_map]

theorem distinctBy_sortedBy_ne_nil {members : List Node} (nonempty : members ≠ []) :
    Text.distinctBy lowerer.ident (Text.sortedBy lowerer.ident members) ≠ [] := by
  intro empty
  obtain ⟨member, rest, rfl⟩ := List.exists_cons_of_ne_nil nonempty
  have idents := Text.map_distinctBy_sortedBy lowerer.ident (member :: rest)
  have listed : lowerer.ident member ∈ Text.sortedSet ((member :: rest).map lowerer.ident) := by
    simp
  rw [← idents, empty] at listed
  cases listed

/-- What is carried along with the members has no effect on the shape. -/
theorem shape_map {α : Type} (carry : Node → α) (members : List Node) :
    lowerer.shape (members.map fun node => (node, carry node)) =
      (lowerer.unionShape members).map fun node => (node, carry node) := by
  rw [shape, unionShape, optionalMember?_map]
  cases Node.optionalOf? members with
  | some member => rfl
  | none =>
      have kept_eq : (members.map fun node => (node, carry node)).filter (lowerer.keeps ·.1) =
          (members.filter lowerer.keeps).map fun node => (node, carry node) := by
        rw [List.filter_map]
        rfl
      simp only [Option.map_none, kept_eq, distinctMembers]
      -- Fewer than two kept members are told apart before any sorting.
      rcases members.filter lowerer.keeps with _ | ⟨first, _ | ⟨second, rest⟩⟩
      · simp [Text.sortedBy, Text.distinctBy, Text.distinctByFrom, UnionShape.map]
      · simp [Text.sortedBy, Text.distinctBy, Text.distinctByFrom, UnionShape.map]
      · have carried := lowerer.distinctBy_sortedBy_map carry (first :: second :: rest)
        have nonempty :=
          lowerer.distinctBy_sortedBy_ne_nil (List.cons_ne_nil first (second :: rest))
        simp only [List.map_cons] at carried ⊢
        rw [carried]
        rcases different : Text.distinctBy lowerer.ident
            (Text.sortedBy lowerer.ident (first :: second :: rest)) with
          _ | ⟨member, _ | ⟨another, others⟩⟩
        · exact absurd different nonempty
        · rfl
        · rfl

/-! ## The members that count -/

theorem length_distinctMembers_le (members : List Node) :
    (lowerer.distinctMembers members).length ≤ (members.filter lowerer.keeps).length := by
  have shorter := (Text.distinctBy_sublist lowerer.ident
    (Text.sortedBy lowerer.ident (members.filter lowerer.keeps))).length_le
  exact shorter.trans (Text.sortedBy_perm _ _).length_eq.le

theorem mem_of_mem_distinctMembers {members : List Node} {member : Node}
    (kept : member ∈ lowerer.distinctMembers members) :
    member ∈ members ∧ lowerer.keeps member = true := by
  have sorted := (Text.distinctBy_sublist _ _).subset kept
  exact List.mem_filter.mp ((Text.sortedBy_perm _ _).mem_iff.mp sorted)

/-- Of the two members of an optional union one is the null type, which does not count. -/
theorem length_distinctMembers_of_optional {members : List Node} {member : Node}
    (optional : Node.optionalOf? members = some member) :
    (lowerer.distinctMembers members).length ≤ 1 := by
  have areOptional : Node.areOptional members = true := by
    by_contra other
    simp [Node.optionalOf?, other] at optional
  simp only [Node.areOptional, Bool.and_eq_true, beq_iff_eq, List.any_eq_true] at areOptional
  obtain ⟨two, null, listed, isNull⟩ := areOptional
  have fewer : (members.filter lowerer.keeps).length < members.length :=
    List.length_filter_lt_length_iff_exists.mpr ⟨null, listed, by simp [keeps, isNull]⟩
  have bound := lowerer.length_distinctMembers_le members
  omega

theorem unionShape_eq_several {members : List Node}
    (several : 2 ≤ (lowerer.distinctMembers members).length) :
    lowerer.unionShape members = .several (lowerer.distinctMembers members) := by
  rw [unionShape]
  cases optional : Node.optionalOf? members with
  | some member =>
      have few := lowerer.length_distinctMembers_of_optional optional
      omega
  | none =>
      rcases different : lowerer.distinctMembers members with _ | ⟨first, _ | ⟨second, rest⟩⟩
      · simp [different] at several
      · simp [different] at several
      · rfl

theorem eq_distinctMembers_of_several {members different : List Node}
    (shape : lowerer.unionShape members = .several different) :
    different = lowerer.distinctMembers members ∧
      2 ≤ (lowerer.distinctMembers members).length := by
  rw [unionShape] at shape
  split at shape
  · cases shape
  · split at shape
    · cases shape
    · cases shape
    · rename_i nonempty notSingle
      cases shape
      refine ⟨rfl, ?_⟩
      rcases different : lowerer.distinctMembers members with _ | ⟨first, _ | ⟨second, rest⟩⟩
      · exact absurd different nonempty
      · exact absurd different (notSingle first)
      · simp

theorem mem_of_mem_unionShape {members : List Node} {member : Node}
    (listed : member ∈ (lowerer.unionShape members).members) : member ∈ members := by
  rw [unionShape] at listed
  split at listed
  · rename_i inner optional
    obtain rfl := List.mem_singleton.mp listed
    rw [Node.optionalOf?] at optional
    split at optional
    · exact List.mem_of_find?_eq_some optional
    · cases optional
  · split at listed
    · cases listed
    · rename_i only single
      exact (lowerer.mem_of_mem_distinctMembers (single ▸ listed)).1
    · exact (lowerer.mem_of_mem_distinctMembers listed).1

/-! ## Lowering by shape -/

theorem descriptor_union (source : Path) (members : List Node) :
    lowerer.descriptor (.union source members) =
      match lowerer.unionShape members with
      | .optional member => .optional (lowerer.descriptor member)
      | .empty => lowerer.anything
      | .single member => lowerer.descriptor member
      | .several different => .ofName .union (lowerer.unionName different) := by
  rw [descriptor, descriptors_eq_map, shape_map]
  cases lowerer.unionShape members with
  | several different => simp only [UnionShape.map, map_fst_carry]
  | _ => rfl

/-- Registers the composites of a member of a union, and the record that wraps it. -/
def enrollMember (ledger : Ledger) (member : Node) : Ledger :=
  (lowerer.enroll member ledger).registerWrapping (lowerer.memberWrapping? member)
    (lowerer.descriptor member)

theorem enroll_union (source : Path) (members : List Node) (ledger : Ledger) :
    lowerer.enroll (.union source members) ledger =
      match lowerer.unionShape members with
      | .optional member | .single member => lowerer.enroll member ledger
      | .empty => ledger.log (.degraded .emptyUnion)
      | .several different =>
          if ledger.defines (lowerer.unionName different) then
            ledger
          else
            (different.foldl lowerer.enrollMember ledger).register (lowerer.unionName different)
              (lowerer.unionOf different) := by
  rw [enroll, enrolments_eq_map, shape_map]
  cases lowerer.unionShape members with
  | several different =>
      simp only [UnionShape.map, map_fst_carry, List.foldl_map]
      rfl
  | _ => rfl

end Lowerer
end ProtocolCodegen
