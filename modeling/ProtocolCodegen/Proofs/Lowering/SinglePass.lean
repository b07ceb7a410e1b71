import ProtocolCodegen.Proofs.Lowering.Shapes

/-!
# Lowering in a single pass

A type and the composites that it needs can be lowered together: its parts are lowered one after the
other against the ledger of the run, and what they come to is put together.  A union is defined from
what its members came to on the way, and its members are passed over when its name has a definition
already.  The descriptor that comes out depends on the type alone all the same, and the ledger is
the one in which the type is enrolled.
-/

namespace ProtocolCodegen

/-! ## Runs with a ledger -/

namespace Ledger

variable {α β : Type}

theorem run_bind (first : StateM Ledger α) (next : α → StateM Ledger β) (ledger : Ledger) :
    (first >>= next).run ledger = (next (first.run ledger).1).run (first.run ledger).2 := rfl

theorem run_get (ledger : Ledger) : (get : StateM Ledger Ledger).run ledger = (ledger, ledger) :=
  rfl

/-- What each of several items comes to, and what it does to the ledger, is known in advance if it
does not depend on the ledger. -/
theorem run_mapM {pass : α → StateM Ledger β} {value : α → β} {enroll : Ledger → α → Ledger}
    {items : List α}
    (each : ∀ item ∈ items, ∀ ledger, (pass item).run ledger = (value item, enroll ledger item))
    (ledger : Ledger) :
    (items.mapM pass).run ledger = (items.map value, items.foldl enroll ledger) := by
  induction items generalizing ledger with
  | nil => rfl
  | cons first rest induction =>
      have run_first := each first List.mem_cons_self ledger
      have run_rest := induction fun item listed => each item (List.mem_cons_of_mem _ listed)
      rw [List.mapM_cons, run_bind, run_first, run_bind, run_rest]
      rfl

end Ledger

namespace Lowerer

/-! ## The pass -/

/-- Lowers what the language cannot express. -/
def degrade (lowerer : Lowerer) (reason : Degradation) : StateM Ledger Descriptor := do
  modify (Ledger.log (.degraded reason))
  return lowerer.anything

/-- Wraps a type that was lowered into a record, if it is wrapped. -/
def enclose (wrapping : Option Wrapping) (wrapped : Descriptor) : StateM Ledger Descriptor := do
  modify (Ledger.registerWrapping wrapping wrapped)
  return wrap wrapping wrapped

/-- The member of a union, together with the pass that lowers its type. -/
def variantPass (lowerer : Lowerer) (member : Node × StateM Ledger Descriptor) :
    StateM Ledger Variant := do
  let lowered ← member.2
  return ⟨lowerer.ident member.1, ← enclose (lowerer.memberWrapping? member.1) lowered⟩

/-- Defines the union of several members, together with the passes that lower their types. -/
def definePass (lowerer : Lowerer) (members : List (Node × StateM Ledger Descriptor)) :
    StateM Ledger Unit := do
  let name := lowerer.unionName (members.map (·.1))
  let variants ← members.mapM lowerer.variantPass
  modify (Ledger.register name (.union name variants))

mutual

/-- Lowers a type and registers the composites that it needs on the way. -/
def pass (lowerer : Lowerer) : Node → StateM Ledger Descriptor
  | .base _ name =>
      match Category.ofBaseType? name with
      | some category => return lowerer.scalar category
      | none => lowerer.degrade (.unknownBase name)
  | .reference _ name => return lowerer.reference name
  | .array _ element => return .array (← lowerer.pass element)
  | .map _ key value => do
      let keyType ← lowerer.pass key
      let valueType ← lowerer.pass value
      return .map (lowerer.mapKey keyType) (← enclose (lowerer.mapWrapping? value) valueType)
  | .constant _ value => return { lowerer.scalar .string with constant := some value }
  | .tuple .. => return lowerer.scalar .array
  | .literal .. => lowerer.degrade .literal
  | .intersection .. => lowerer.degrade .intersection
  | .union _ members =>
      match lowerer.shape (lowerer.passes members) with
      | .optional member => return .optional (← member.2)
      | .empty => lowerer.degrade .emptyUnion
      | .single member => member.2
      | .several different => do
          let name := lowerer.unionName (different.map (·.1))
          unless (← get).defines name do
            lowerer.definePass different
          return .ofName .union name

/-- Types with the passes that lower them. -/
def passes (lowerer : Lowerer) : List Node → List (Node × StateM Ledger Descriptor)
  | [] => []
  | node :: rest => (node, lowerer.pass node) :: lowerer.passes rest

end

/-- Lowers a type that may be missing in a single pass. -/
def passOf (lowerer : Lowerer) : Option Node → StateM Ledger Descriptor
  | some node => lowerer.pass node
  | none => lowerer.degrade .missingType

theorem passes_eq_map (lowerer : Lowerer) (nodes : List Node) :
    lowerer.passes nodes = nodes.map fun node => (node, lowerer.pass node) := by
  induction nodes with
  | nil => rfl
  | cons node rest ih => simp [passes, ih]

/-! ## What a pass does -/

/-- A pass over a type gives its descriptor and leaves the ledger in which the type is enrolled. -/
def PassAgrees (lowerer : Lowerer) (node : Node) : Prop :=
  ∀ ledger, (lowerer.pass node).run ledger = (lowerer.descriptor node, lowerer.enroll node ledger)

variable {lowerer : Lowerer}

theorem PassAgrees.run_variantPass {node : Node} (agrees : lowerer.PassAgrees node)
    (ledger : Ledger) :
    (lowerer.variantPass (node, lowerer.pass node)).run ledger =
      (⟨lowerer.ident node, lowerer.memberDescriptor node⟩, lowerer.enrollMember ledger node) := by
  rw [variantPass, Ledger.run_bind, agrees ledger]
  rfl

/-- A union is defined from what its members came to. -/
theorem run_definePass {members : List Node}
    (agree : ∀ member ∈ members, lowerer.PassAgrees member) (ledger : Ledger) :
    (lowerer.definePass (members.map fun node => (node, lowerer.pass node))).run ledger =
      ((), (members.foldl lowerer.enrollMember ledger).register (lowerer.unionName members)
        (lowerer.unionOf members)) := by
  have run_variants :
      (members.mapM (lowerer.variantPass ∘ fun node => (node, lowerer.pass node))).run ledger =
        (members.map fun node => ⟨lowerer.ident node, lowerer.memberDescriptor node⟩,
          members.foldl lowerer.enrollMember ledger) :=
    Ledger.run_mapM (fun member listed => (agree member listed).run_variantPass) ledger
  rw [definePass, map_fst_carry, List.mapM_map, Ledger.run_bind, run_variants]
  rfl

theorem passAgrees_base (source : Path) (name : String) :
    lowerer.PassAgrees (.base source name) := by
  intro ledger
  rw [pass, descriptor, enroll]
  cases Category.ofBaseType? name with
  | some category => rfl
  | none => rfl

theorem passAgrees_array {source : Path} {element : Node} (agrees : lowerer.PassAgrees element) :
    lowerer.PassAgrees (.array source element) := by
  intro ledger
  rw [pass, Ledger.run_bind, agrees ledger]
  rfl

theorem passAgrees_map {source : Path} {key value : Node} (key_agrees : lowerer.PassAgrees key)
    (value_agrees : lowerer.PassAgrees value) : lowerer.PassAgrees (.map source key value) := by
  intro ledger
  rw [pass, Ledger.run_bind, key_agrees ledger, Ledger.run_bind,
    value_agrees (lowerer.enroll key ledger)]
  rfl

/-- A union is lowered by its shape: a member that is left alone takes its place, and several
members are lowered before the union of them is defined. -/
theorem passAgrees_union {source : Path} {members : List Node}
    (agree : ∀ member ∈ members, lowerer.PassAgrees member) :
    lowerer.PassAgrees (.union source members) := by
  intro ledger
  have kept_agree (member : Node) (listed : member ∈ (lowerer.unionShape members).members) :
      lowerer.PassAgrees member := agree member (lowerer.mem_of_mem_unionShape listed)
  -- The passes are carried along with the members and leave the shape as it is.
  rw [pass, passes_eq_map, shape_map, descriptor_union, enroll_union]
  cases shape : lowerer.unionShape members with
  | empty => rfl
  | optional member =>
      have run_member := kept_agree member (by simp [shape, UnionShape.members]) ledger
      simp only [UnionShape.map]
      rw [Ledger.run_bind, run_member]
      rfl
  | single member =>
      exact kept_agree member (by simp [shape, UnionShape.members]) ledger
  | several different =>
      have different_agree (member : Node) (listed : member ∈ different) :
          lowerer.PassAgrees member :=
        kept_agree member (by simpa [shape, UnionShape.members] using listed)
      simp only [UnionShape.map, map_fst_carry]
      rw [Ledger.run_bind, Ledger.run_get]
      split
      · rfl
      · rw [Ledger.run_bind, run_definePass different_agree]
        rfl

theorem passAgrees (node : Node) : lowerer.PassAgrees node := by
  induction node using Node.induction with
  | base source name => exact passAgrees_base source name
  | array source element agrees => exact passAgrees_array agrees
  | map source key value key_agrees value_agrees => exact passAgrees_map key_agrees value_agrees
  | union source members agree => exact passAgrees_union agree
  | reference | literal | constant | intersection | tuple => exact fun ledger => rfl

/-- To lower a type in the course of a run is a single pass over it. -/
theorem passOf_eq_lower (lowerer : Lowerer) (node : Option Node) :
    lowerer.passOf node = lowerer.lower node := by
  funext ledger
  cases node with
  | some node => exact passAgrees node ledger
  | none => rfl

end Lowerer
end ProtocolCodegen
