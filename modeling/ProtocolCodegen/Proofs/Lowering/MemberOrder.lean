import Mathlib
import ProtocolCodegen.Proofs.Lowering.Shapes
import ProtocolCodegen.Target.Language

/-!
# Order of the members of unions

The members of a union are sorted before anything is registered, so their order in the schema counts
only where two of them have one identifier, since of these the first is kept.  Where the members of
every union have different identifiers, types that differ in the order of members, at any depth, and
in where they stand are lowered to the same descriptor and leave the same ledger.
-/

namespace ProtocolCodegen

/-- Two shapes are the same and have corresponding members. -/
inductive UnionShape.Corresponds {α β : Type} (related : α → β → Prop) :
    UnionShape α → UnionShape β → Prop where
  | optional {member : α} {member' : β} (each : related member member') :
      Corresponds related (.optional member) (.optional member')
  | empty : Corresponds related .empty .empty
  | single {member : α} {member' : β} (each : related member member') :
      Corresponds related (.single member) (.single member')
  | several {members : List α} {members' : List β} (each : List.Forall₂ related members members') :
      Corresponds related (.several members) (.several members')

namespace Node

theorem areOptional_of_perm {members members' : List Node} (reordered : members'.Perm members) :
    areOptional members' = areOptional members := by
  rw [areOptional, areOptional, reordered.length_eq, reordered.any_eq]

/-- Of two members of which one is the null type at most one is left, wherever it stood. -/
theorem optionalOf?_of_perm {members members' : List Node} (reordered : members'.Perm members) :
    optionalOf? members' = optionalOf? members := by
  rw [optionalOf?, optionalOf?, areOptional_of_perm reordered]
  split
  · rename_i optional
    simp only [areOptional, Bool.and_eq_true, beq_iff_eq, List.any_eq_true] at optional
    obtain ⟨two, null, listed, isNull⟩ := optional
    have fewer : (members.filter (!·.isNull)).length < members.length :=
      List.length_filter_lt_length_iff_exists.mpr ⟨null, listed, by simp [isNull]⟩
    have left := reordered.filter (!·.isNull)
    rw [← List.head?_filter, ← List.head?_filter]
    generalize members.filter (!·.isNull) = kept at fewer left ⊢
    rcases kept with _ | ⟨member, _ | ⟨another, rest⟩⟩
    · rw [List.perm_nil.mp left]
    · rw [List.perm_singleton.mp left]
    · simp only [List.length_cons] at fewer
      omega
  · rfl

end Node

namespace Lowerer

variable {lowerer : Lowerer}

/-! ## Types that are lowered alike -/

/-- Two types that lowering cannot tell apart, whatever they stand in. -/
structure LowersAlike (lowerer : Lowerer) (node node' : Node) : Prop where
  isNull : node'.isNull = node.isNull
  keeps : lowerer.keeps node' = lowerer.keeps node
  ident : lowerer.ident node' = lowerer.ident node
  mapWrapping : lowerer.mapWrapping? node' = lowerer.mapWrapping? node
  memberWrapping : lowerer.memberWrapping? node' = lowerer.memberWrapping? node
  descriptor : lowerer.descriptor node' = lowerer.descriptor node
  enroll : ∀ ledger, lowerer.enroll node' ledger = lowerer.enroll node ledger

namespace LowersAlike

theorem areOptional_eq {members members' : List Node}
    (each : List.Forall₂ lowerer.LowersAlike members members') :
    Node.areOptional members' = Node.areOptional members := by
  have nulls : members'.any Node.isNull = members.any Node.isNull := by
    induction each with
    | nil => rfl
    | cons first _ induction => rw [List.any_cons, List.any_cons, first.isNull, induction]
  rw [Node.areOptional, Node.areOptional, each.length_eq, nulls]

theorem optionalOf? {members members' : List Node}
    (each : List.Forall₂ lowerer.LowersAlike members members') :
    Option.Rel lowerer.LowersAlike (Node.optionalOf? members) (Node.optionalOf? members') := by
  have found : Option.Rel lowerer.LowersAlike (members.find? (!·.isNull))
      (members'.find? (!·.isNull)) := by
    induction each with
    | nil => exact .none
    | cons first _ induction =>
        rw [List.find?_cons, List.find?_cons, first.isNull]
        split
        · exact .some first
        · exact induction
  rw [Node.optionalOf?, Node.optionalOf?, areOptional_eq each]
  split
  · exact found
  · exact .none

theorem distinctMembers {members members' : List Node}
    (each : List.Forall₂ lowerer.LowersAlike members members') :
    List.Forall₂ lowerer.LowersAlike (lowerer.distinctMembers members)
      (lowerer.distinctMembers members') := by
  have kept : List.Forall₂ lowerer.LowersAlike (members.filter lowerer.keeps)
      (members'.filter lowerer.keeps) :=
    List.rel_filter (fun _ _ alike => by simp only [alike.keeps]) each
  have idents (node node' : Node) (alike : lowerer.LowersAlike node node') :
      lowerer.ident node' = lowerer.ident node := alike.ident
  exact Text.forall₂_distinctByFrom (Text.forall₂_sortedBy kept idents) idents []

theorem unionShape {members members' : List Node}
    (each : List.Forall₂ lowerer.LowersAlike members members') :
    (lowerer.unionShape members).Corresponds lowerer.LowersAlike
      (lowerer.unionShape members') := by
  have optional := optionalOf? each
  have distinct := distinctMembers each
  rw [Lowerer.unionShape, Lowerer.unionShape]
  generalize Node.optionalOf? members = found, Node.optionalOf? members' = found' at optional
  generalize lowerer.distinctMembers members = left, lowerer.distinctMembers members' = left'
    at distinct
  cases optional with
  | some alike => exact .optional alike
  | none =>
      rcases distinct with _ | ⟨first, _ | ⟨second, rest⟩⟩
      · exact .empty
      · exact .single first
      · exact .several (.cons first (.cons second rest))

/-! ## Lowering alike -/

theorem array {source source' : Path} {element element' : Node}
    (alike : lowerer.LowersAlike element element') :
    lowerer.LowersAlike (.array source element) (.array source' element') where
  isNull := rfl
  keeps := rfl
  ident := by rw [Lowerer.ident, Lowerer.ident, alike.ident]
  mapWrapping := by rw [mapWrapping?, mapWrapping?, alike.ident]
  memberWrapping := by simp only [memberWrapping?, alike.ident]
  descriptor := by rw [Lowerer.descriptor, Lowerer.descriptor, alike.descriptor]
  enroll ledger := by rw [Lowerer.enroll, Lowerer.enroll, alike.enroll]

theorem map {source source' : Path} {key key' value value' : Node}
    (alikeKey : lowerer.LowersAlike key key') (alikeValue : lowerer.LowersAlike value value') :
    lowerer.LowersAlike (.map source key value) (.map source' key' value') where
  isNull := rfl
  keeps := rfl
  ident := by rw [Lowerer.ident, Lowerer.ident, alikeKey.ident, alikeValue.ident]
  mapWrapping := rfl
  memberWrapping := by simp only [memberWrapping?, alikeKey.ident, alikeValue.ident]
  descriptor := by
    rw [Lowerer.descriptor, Lowerer.descriptor, alikeKey.descriptor, alikeValue.descriptor,
      alikeValue.mapWrapping]
  enroll ledger := by
    rw [Lowerer.enroll, Lowerer.enroll, alikeKey.enroll, alikeValue.enroll,
      alikeValue.mapWrapping, alikeValue.descriptor]

theorem map_ident {members members' : List Node}
    (each : List.Forall₂ lowerer.LowersAlike members members') :
    members'.map lowerer.ident = members.map lowerer.ident := by
  induction each with
  | nil => rfl
  | cons first _ induction => rw [List.map_cons, List.map_cons, first.ident, induction]

theorem unionName {members members' : List Node}
    (each : List.Forall₂ lowerer.LowersAlike members members') :
    lowerer.unionName members' = lowerer.unionName members := by
  rw [Lowerer.unionName, Lowerer.unionName, map_ident each]

theorem unionOf {members members' : List Node}
    (each : List.Forall₂ lowerer.LowersAlike members members') :
    lowerer.unionOf members' = lowerer.unionOf members := by
  have variants : (members'.map fun node =>
      (⟨lowerer.ident node, lowerer.memberDescriptor node⟩ : Variant)) =
      members.map fun node => ⟨lowerer.ident node, lowerer.memberDescriptor node⟩ := by
    induction each with
    | nil => rfl
    | cons first _ induction =>
        rw [List.map_cons, List.map_cons, induction, first.ident, memberDescriptor,
          memberDescriptor, first.memberWrapping, first.descriptor]
  rw [Lowerer.unionOf, Lowerer.unionOf, unionName each, variants]

theorem foldl_enrollMember {members members' : List Node}
    (each : List.Forall₂ lowerer.LowersAlike members members') (ledger : Ledger) :
    members'.foldl lowerer.enrollMember ledger = members.foldl lowerer.enrollMember ledger := by
  induction each generalizing ledger with
  | nil => rfl
  | cons first _ induction =>
      rw [List.foldl_cons, List.foldl_cons, induction, enrollMember, enrollMember, first.enroll,
        first.memberWrapping, first.descriptor]

/-- Unions whose shapes have members that are lowered alike are lowered alike. -/
theorem union {source source' : Path} {members members' : List Node}
    (shapes : (lowerer.unionShape members).Corresponds lowerer.LowersAlike
      (lowerer.unionShape members')) :
    lowerer.LowersAlike (.union source members) (.union source' members') where
  isNull := rfl
  keeps := rfl
  ident := rfl
  mapWrapping := rfl
  memberWrapping := rfl
  descriptor := by
    rw [descriptor_union, descriptor_union]
    generalize lowerer.unionShape members = shape, lowerer.unionShape members' = shape' at shapes
    cases shapes with
    | optional alike => simp only [alike.descriptor]
    | empty => rfl
    | single alike => exact alike.descriptor
    | several each => simp only [unionName each]
  enroll ledger := by
    rw [enroll_union, enroll_union]
    generalize lowerer.unionShape members = shape, lowerer.unionShape members' = shape' at shapes
    cases shapes with
    | optional alike => exact alike.enroll ledger
    | empty => rfl
    | single alike => exact alike.enroll ledger
    | several each => simp only [unionName each, unionOf each, foldl_enrollMember each]

end LowersAlike

/-! ## Reordered types -/

/-- The members of a union that count have different identifiers. -/
def HasDistinctMembers (lowerer : Lowerer) (members : List Node) : Prop :=
  ((members.filter lowerer.keeps).map lowerer.ident).Nodup

/-- A type and another one that differs from it in where it stands and in the order of the members
of unions, at any depth.  Members change places only in unions whose members have different
identifiers.  What is inside anonymous records, intersections and tuples does not count. -/
inductive Reorders (lowerer : Lowerer) : Node → Node → Prop where
  | base {source source' : Path} {name : String} :
      Reorders lowerer (.base source name) (.base source' name)
  | reference {source source' : Path} {name : String} :
      Reorders lowerer (.reference source name) (.reference source' name)
  | array {source source' : Path} {element element' : Node}
      (inside : Reorders lowerer element element') :
      Reorders lowerer (.array source element) (.array source' element')
  | map {source source' : Path} {key key' value value' : Node}
      (inKey : Reorders lowerer key key') (inValue : Reorders lowerer value value') :
      Reorders lowerer (.map source key value) (.map source' key' value')
  | literal {source source' : Path} {properties properties' : List (Property Node)} :
      Reorders lowerer (.literal source properties) (.literal source' properties')
  | constant {source source' : Path} {value : String} :
      Reorders lowerer (.constant source value) (.constant source' value)
  | union {source source' : Path} {members order members' : List Node}
      (moved : order.Perm members) (free : order = members ∨ lowerer.HasDistinctMembers members)
      (each : List.Forall₂ (Reorders lowerer) order members') :
      Reorders lowerer (.union source members) (.union source' members')
  | intersection {source source' : Path} {members members' : List Node} :
      Reorders lowerer (.intersection source members) (.intersection source' members')
  | tuple {source source' : Path} {members members' : List Node} :
      Reorders lowerer (.tuple source members) (.tuple source' members')

/-- The members of a union in some order, each of which may be reordered itself. -/
def ReordersMembers (lowerer : Lowerer) (members members' : List Node) : Prop :=
  ∃ order : List Node, order.Perm members ∧ List.Forall₂ lowerer.Reorders order members'

theorem reorders_refl (node : Node) : lowerer.Reorders node node := by
  induction node using Node.induction with
  | base => exact .base
  | reference => exact .reference
  | array _ _ induction => exact .array induction
  | map _ _ _ inductionKey inductionValue => exact .map inductionKey inductionValue
  | literal => exact .literal
  | constant => exact .constant
  | union _ _ induction => exact .union (.refl _) (.inl rfl) (List.forall₂_same.mpr induction)
  | intersection => exact .intersection
  | tuple => exact .tuple

/-- Members that are as they were may stand in any order. -/
theorem reordersMembers_of_perm {members members' : List Node} (moved : members'.Perm members) :
    lowerer.ReordersMembers members members' :=
  ⟨members', moved, List.forall₂_same.mpr fun member _ => reorders_refl member⟩

theorem unionShape_of_perm {members order : List Node} (moved : order.Perm members)
    (distinct : lowerer.HasDistinctMembers members) :
    lowerer.unionShape order = lowerer.unionShape members := by
  rw [unionShape, unionShape, Node.optionalOf?_of_perm moved, distinctMembers, distinctMembers,
    Text.sortedBy_eq_of_perm (moved.filter _) distinct]

theorem unionShape_of_optional (lowerer : Lowerer) {members : List Node} {member : Node}
    (optional : Node.optionalOf? members = some member) :
    lowerer.unionShape members = .optional member := by
  rw [unionShape, optional]

/-- A type and another one to which it is reordered are lowered alike. -/
theorem Reorders.lowersAlike {node node' : Node} (reorders : lowerer.Reorders node node') :
    lowerer.LowersAlike node node' := by
  induction node using Node.induction generalizing node' with
  | array source element induction =>
      cases reorders with
      | array inside => exact .array (induction inside)
  | map source key value inductionKey inductionValue =>
      cases reorders with
      | map inKey inValue => exact .map (inductionKey inKey) (inductionValue inValue)
  | union source members induction =>
      cases reorders with
      | @union _ _ _ order members' moved free each =>
          have same : lowerer.unionShape order = lowerer.unionShape members := by
            rcases free with rfl | distinct
            · rfl
            · exact unionShape_of_perm moved distinct
          obtain ⟨length_eq, pairs⟩ := List.forall₂_iff_zip.mp each
          have alike : List.Forall₂ lowerer.LowersAlike order members' := by
            refine List.forall₂_iff_zip.mpr ⟨length_eq, fun listed => ?_⟩
            have among := moved.mem_iff.mp (List.of_mem_zip listed).1
            exact induction _ among (pairs listed)
          exact .union (same ▸ LowersAlike.unionShape alike)
  | base | reference | literal | constant | intersection | tuple =>
      cases reorders
      exact ⟨rfl, rfl, rfl, rfl, rfl, rfl, fun ledger => by simp only [enroll]⟩

theorem ReordersMembers.lowersAlike {members members' : List Node}
    (reordered : lowerer.ReordersMembers members members') :
    ∃ order : List Node, order.Perm members ∧ List.Forall₂ lowerer.LowersAlike order members' := by
  obtain ⟨order, moved, each⟩ := reordered
  exact ⟨order, moved, each.imp fun _ _ reorders => reorders.lowersAlike⟩

/-! ## Unions -/

theorem exists_optionalOf? {members : List Node} (two : members.length = 2)
    (one : members.countP Node.isNull = 1) :
    ∃ member ∈ members, member.isNull = false ∧ Node.optionalOf? members = some member := by
  obtain ⟨first, second, rfl⟩ := List.length_eq_two.mp two
  cases null : first.isNull <;> cases null' : second.isNull <;>
    simp_all [Node.optionalOf?, Node.areOptional]

/-- The name of a union depends on the identifiers of the members that count. -/
theorem descriptor_union_of_different (source : Path) {members : List Node} {one other : Node}
    (listed : one ∈ members.filter lowerer.keeps) (listed' : other ∈ members.filter lowerer.keeps)
    (different : lowerer.ident one ≠ lowerer.ident other) :
    lowerer.descriptor (.union source members) =
      .ofName .union (lowerer.profile.naming.unionName
        (Text.sortedSet ((members.filter lowerer.keeps).map lowerer.ident))) := by
  have idents : (lowerer.distinctMembers members).map lowerer.ident =
      Text.sortedSet ((members.filter lowerer.keeps).map lowerer.ident) :=
    Text.map_distinctBy_sortedBy _ _
  have several : 2 ≤ (lowerer.distinctMembers members).length := by
    rw [← List.length_map lowerer.ident, idents]
    exact Text.two_le_length_sortedSet (List.mem_map_of_mem listed) (List.mem_map_of_mem listed')
      different
  rw [descriptor_union, unionShape_eq_several lowerer several]
  simp only [unionName, idents]

theorem LowersAlike.perm_idents {members order members' : List Node} (moved : order.Perm members)
    (each : List.Forall₂ lowerer.LowersAlike order members') :
    ((members'.filter lowerer.keeps).map lowerer.ident).Perm
      ((members.filter lowerer.keeps).map lowerer.ident) := by
  have kept : List.Forall₂ lowerer.LowersAlike (order.filter lowerer.keeps)
      (members'.filter lowerer.keeps) :=
    List.rel_filter (fun _ _ alike => by simp only [alike.keeps]) each
  rw [map_ident kept]
  exact (moved.filter _).map _

/-- The order of the members of a union, and of the members of unions within them, has no effect.  A
null type and another type make the same optional type, members of different identifiers make the
same union, and where all members that count have different identifiers the ledger is the same
too. -/
theorem lower_reordered_union (lowerer : Lowerer) (source source' : Path)
    {members members' : List Node} (reordered : lowerer.ReordersMembers members members')
    (before : Ledger) :
    let (first, after) := (lowerer.lower (some (.union source members))).run before
    let (second, after') := (lowerer.lower (some (.union source' members'))).run before
    (members.length = 2 → members.countP Node.isNull = 1 →
      second = first ∧ ∃ member ∈ members, member.isNull = false ∧
        first = .optional (lowerer.descriptor member)) ∧
    ((∃ one ∈ members.filter lowerer.keeps, ∃ other ∈ members.filter lowerer.keeps,
        lowerer.ident one ≠ lowerer.ident other) →
      second = first ∧ ∃ name, first = .ofName .union name) ∧
    (lowerer.HasDistinctMembers members → second = first ∧ after' = after) := by
  obtain ⟨order, moved, each⟩ := reordered.lowersAlike
  have alike (same : lowerer.unionShape order = lowerer.unionShape members) :
      lowerer.LowersAlike (.union source members) (.union source' members') :=
    .union (same ▸ LowersAlike.unionShape each)
  refine ⟨fun two one => ?_, ?_, fun distinct => ?_⟩
  · obtain ⟨member, listed, notNull, optional⟩ := exists_optionalOf? two one
    have shape := lowerer.unionShape_of_optional optional
    have shape' : lowerer.unionShape order = .optional member :=
      lowerer.unionShape_of_optional ((Node.optionalOf?_of_perm moved).trans optional)
    refine ⟨(alike (shape'.trans shape.symm)).descriptor, member, listed, notNull, ?_⟩
    show lowerer.descriptor _ = _
    rw [descriptor_union, shape]
  · rintro ⟨one, listed, other, listed', different⟩
    have idents := LowersAlike.perm_idents moved each
    have moved_ident {member : Node} (listed : member ∈ members.filter lowerer.keeps) :
        ∃ member' ∈ members'.filter lowerer.keeps, lowerer.ident member' = lowerer.ident member :=
      List.mem_map.mp (idents.mem_iff.mpr (List.mem_map_of_mem listed))
    obtain ⟨one', among, same⟩ := moved_ident listed
    obtain ⟨other', among', same'⟩ := moved_ident listed'
    have named := descriptor_union_of_different source listed listed' different
    have named' := descriptor_union_of_different source' among among' (by rwa [same, same'])
    refine ⟨?_, _, named⟩
    show lowerer.descriptor _ = lowerer.descriptor _
    rw [named, named', Text.sortedSet_eq_iff.mpr fun _ => idents.mem_iff]
  · have lowered := alike (unionShape_of_perm moved distinct)
    exact ⟨lowered.descriptor, lowered.enroll before⟩

/-- In proto, the members of a union and those of a union inside one of them can change places. -/
theorem lower_reordered_union_nested :
    let lowerer : Lowerer := ⟨Language.proto.profile, false, []⟩
    let inner (name name' : String) : Node := .array (.root "inner")
      (.union (.root "union") [.reference (.root "one") name, .reference (.root "other") name'])
    let members : List Node := [inner "A" "B", .base (.root "text") "string"]
    let members' : List Node := [.base (.root "moved") "string", inner "B" "A"]
    lowerer.HasDistinctMembers members ∧
      (lowerer.lower (some (.union (.root "union") members'))).run .empty =
        (lowerer.lower (some (.union (.root "union") members))).run .empty := by
  intro lowerer inner members members'
  have distinct : lowerer.HasDistinctMembers members := by
    have idents : (members.filter lowerer.keeps).map lowerer.ident = ["ArrUnion", "String"] := by
      cbv
    rw [HasDistinctMembers, idents]
    decide
  have distinctInner : lowerer.HasDistinctMembers
      [.reference (.root "one") "A", .reference (.root "other") "B"] := by
    have idents : ([.reference (.root "one") "A", .reference (.root "other") "B"].filter
        lowerer.keeps).map lowerer.ident = ["A", "B"] := by cbv
    rw [HasDistinctMembers, idents]
    decide
  have reordersInner : lowerer.Reorders (inner "A" "B") (inner "B" "A") :=
    .array (.union (.swap _ _ _) (.inr distinctInner)
      (.cons .reference (.cons .reference .nil)))
  have reordered : lowerer.ReordersMembers members members' :=
    ⟨[.base (.root "text") "string", inner "A" "B"], .swap _ _ _,
      .cons .base (.cons reordersInner .nil)⟩
  obtain ⟨_, _, same⟩ := lower_reordered_union lowerer (.root "union") (.root "union") reordered
    .empty
  exact ⟨distinct, Prod.ext (same distinct).1 (same distinct).2⟩

end Lowerer
end ProtocolCodegen
