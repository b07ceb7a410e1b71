import ProtocolCodegen.Schema.Node

/-!
# Nodes within nodes

Induction over the types of a schema, whose members stand in lists, and the types that stand
somewhere within another one.
-/

namespace ProtocolCodegen.Node

theorem sizeOf_type_lt_of_mem {property : Property Node} {properties : List (Property Node)}
    (listed : property ∈ properties) : sizeOf property.type < sizeOf properties := by
  have smaller := List.sizeOf_lt_of_mem listed
  cases property
  simp only [Property.mk.sizeOf_spec] at smaller ⊢
  omega

/-- Induction over types, in which the members of lists are given one by one. -/
@[elab_as_elim]
theorem induction {motive : Node → Prop}
    (base : ∀ source name, motive (.base source name))
    (reference : ∀ source name, motive (.reference source name))
    (array : ∀ source element, motive element → motive (.array source element))
    (map : ∀ source key value, motive key → motive value → motive (.map source key value))
    (literal : ∀ source properties, (∀ property ∈ properties, motive property.type) →
      motive (.literal source properties))
    (constant : ∀ source value, motive (.constant source value))
    (union : ∀ source members, (∀ member ∈ members, motive member) →
      motive (.union source members))
    (intersection : ∀ source members, (∀ member ∈ members, motive member) →
      motive (.intersection source members))
    (tuple : ∀ source members, (∀ member ∈ members, motive member) →
      motive (.tuple source members))
    (node : Node) : motive node := by
  -- The recursor of the type says nothing of the members of its lists, so the induction is on size.
  induction size : sizeOf node using Nat.strongRecOn generalizing node with
  | ind bound smaller =>
      have descend (part : Node) (less : sizeOf part < sizeOf node) : motive part :=
        smaller (sizeOf part) (size ▸ less) part rfl
      have member_lt {source : Path} {members : List Node} {member : Node}
          (listed : member ∈ members) :
          sizeOf member < sizeOf (Node.union source members) ∧
            sizeOf member < sizeOf (Node.intersection source members) ∧
            sizeOf member < sizeOf (Node.tuple source members) := by
        have less := List.sizeOf_lt_of_mem listed
        simp only [Node.union.sizeOf_spec, Node.intersection.sizeOf_spec,
          Node.tuple.sizeOf_spec]
        omega
      cases node with
      | base source name => exact base source name
      | reference source name => exact reference source name
      | array source element =>
          have less : sizeOf element < sizeOf (Node.array source element) := by
            simp only [Node.array.sizeOf_spec]
            omega
          exact array source element (descend element less)
      | map source key value =>
          have less : sizeOf key < sizeOf (Node.map source key value) ∧
              sizeOf value < sizeOf (Node.map source key value) := by
            simp only [Node.map.sizeOf_spec]
            omega
          exact map source key value (descend key less.1) (descend value less.2)
      | literal source properties =>
          refine literal source properties fun property listed => descend property.type ?_
          have less := sizeOf_type_lt_of_mem listed
          simp only [Node.literal.sizeOf_spec]
          omega
      | constant source value => exact constant source value
      | union source members =>
          exact union source members fun member listed => descend member (member_lt listed).1
      | intersection source members =>
          exact intersection source members fun member listed =>
            descend member (member_lt listed).2.1
      | tuple source members =>
          exact tuple source members fun member listed => descend member (member_lt listed).2.2

/-- The types that stand directly in a type. -/
def parts : Node → List Node
  | .array _ element => [element]
  | .map _ key value => [key, value]
  | .literal _ properties => properties.map (·.type)
  | .union _ members | .intersection _ members | .tuple _ members => members
  | .base .. | .reference .. | .constant .. => []

/-- A type is another one or stands in it at some depth, where `enter` gives the types into which
one descends. -/
inductive Within (enter : Node → List Node) (inner : Node) : Node → Prop where
  | self : Within enter inner inner
  | part {outer part : Node} (listed : part ∈ enter outer) (within : Within enter inner part) :
      Within enter inner outer

theorem Within.mono {enter enter' : Node → List Node} {inner outer : Node}
    (within : Within enter inner outer) (entered : ∀ node, enter node ⊆ enter' node) :
    Within enter' inner outer := by
  induction within with
  | self => exact .self
  | part listed _ induction => exact .part (entered _ listed) induction

theorem Within.trans {enter : Node → List Node} {inner middle outer : Node}
    (first : Within enter inner middle) (second : Within enter middle outer) :
    Within enter inner outer := by
  induction second with
  | self => exact first
  | part listed _ induction => exact .part listed induction

end ProtocolCodegen.Node
