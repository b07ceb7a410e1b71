import ProtocolCodegen.Composite
import ProtocolCodegen.Profile
import ProtocolCodegen.Schema.Model

/-!
# Lowering

Lowering maps every type of a schema to a type that a target language can express.  The descriptor
of a type depends on the type and the profile alone; what the run adds is the definitions of the
composites that descriptors name, which are enrolled in a ledger.
-/

namespace ProtocolCodegen

/-- How the types of a protocol are lowered for a target language. -/
structure Lowerer where
  /-- What the target language needs. -/
  profile : Profile
  /-- Whether members of unions that are proposed types are kept. -/
  includesProposed : Bool
  /-- Which declared names are proposed. -/
  proposed : Dictionary String Bool

/-- How a collection is wrapped into a record. -/
structure Wrapping where
  /-- Name of the record. -/
  name : String
  /-- Name of its field. -/
  field : String
  deriving DecidableEq, Repr

/-- What a union comes down to. -/
inductive UnionShape (α : Type) where
  /-- One member whose values can be absent. -/
  | optional (member : α)
  /-- No member at all. -/
  | empty
  /-- A single member. -/
  | single (member : α)
  /-- Members of different identifiers, in the order of these. -/
  | several (members : List α)
  deriving Repr

namespace Lowerer

/-- The lowerer of a protocol. -/
def ofModel (model : Model) (profile : Profile) (includesProposed : Bool) : Lowerer where
  profile := profile
  includesProposed := includesProposed
  proposed := model.proposedFlags

/-- The base type of a category. -/
def scalar (lowerer : Lowerer) (category : Category) : Descriptor :=
  .scalar category (lowerer.profile.baseTypes.spell category)

/-- The type of what the language cannot express. -/
def anything (lowerer : Lowerer) : Descriptor :=
  .ofName .any lowerer.profile.baseTypes.anyType

/-- A declared type, or the base type that takes its place. -/
def reference (lowerer : Lowerer) (name : String) : Descriptor :=
  match lowerer.profile.overrides.get? name with
  | some category => lowerer.scalar category
  | none => .ofName .named (lowerer.profile.naming.typeName name)

/-- The identifier that stands for a type in the names of composites. -/
def ident (lowerer : Lowerer) : Node → String
  | .base _ name =>
      match Category.ofBaseType? name with
      | some category => lowerer.profile.baseTypes.ident category
      | none => lowerer.profile.baseTypes.anyIdent
  | .reference _ name => lowerer.profile.naming.typeName name
  | .array _ element => "Arr" ++ lowerer.ident element
  | .map _ key value => "Map" ++ lowerer.ident key ++ lowerer.ident value
  | .literal .. => lowerer.profile.naming.literalIdent
  | .constant .. => lowerer.profile.naming.constantIdent
  | .union .. => lowerer.profile.naming.unionIdent
  | .intersection .. => lowerer.profile.naming.intersectionIdent
  | .tuple .. => lowerer.profile.naming.tupleIdent

/-- Whether a type is a reference to a proposed declaration. -/
def isProposedReference (lowerer : Lowerer) : Node → Bool
  | .reference _ name => (lowerer.proposed.get? name).getD false
  | _ => false

/-- Whether a member of a union counts. -/
def keeps (lowerer : Lowerer) (node : Node) : Bool :=
  !node.isNull && (lowerer.includesProposed || !lowerer.isProposedReference node)

/-- The member that a union makes optional, if the union has two members of which one is the null
type. -/
def optionalMember? {α : Type} (members : List (Node × α)) : Option (Node × α) :=
  if Node.areOptional (members.map (·.1)) then members.find? (!·.1.isNull) else none

/-- What a union of members comes down to.  Members that do not count are dropped, the others are
sorted by their identifiers, and of equal identifiers the first is kept. -/
def shape {α : Type} (lowerer : Lowerer) (members : List (Node × α)) : UnionShape (Node × α) :=
  match optionalMember? members with
  | some member => .optional member
  | none =>
      match members.filter (lowerer.keeps ·.1) with
      | [] => .empty
      | [member] => .single member
      | kept =>
          let key (member : Node × α) : String := lowerer.ident member.1
          match Text.distinctBy key (Text.sortedBy key kept) with
          | [member] => .single member
          | different => .several different

/-- The name of a union of several members. -/
def unionName (lowerer : Lowerer) (members : List Node) : String :=
  lowerer.profile.naming.unionName (members.map lowerer.ident)

/-- How a value of a map is wrapped. -/
def mapWrapping? (lowerer : Lowerer) : Node → Option Wrapping
  | .array _ element =>
      if lowerer.profile.wrapsMapArrays then
        some ⟨lowerer.profile.naming.mapArrayStart ++ lowerer.ident element, "items"⟩
      else
        none
  | _ => none

/-- How a member of a union is wrapped. -/
def memberWrapping? (lowerer : Lowerer) (node : Node) : Option Wrapping :=
  let naming := lowerer.profile.naming
  if lowerer.profile.wrapsUnionCollections then
    match node with
    | .array _ element => some ⟨naming.arrayStart ++ lowerer.ident element, "items"⟩
    | .map _ key value =>
        some ⟨naming.mapStart ++ lowerer.ident key ++ naming.wrapperSeparator ++
          lowerer.ident value, "pairs"⟩
    | _ => none
  else
    none

/-- A type after it may have been wrapped. -/
def wrap (wrapping : Option Wrapping) (wrapped : Descriptor) : Descriptor :=
  match wrapping with
  | some wrapping => .ofName .wrapper wrapping.name
  | none => wrapped

/-- Whether a type can be the key of a map in every language. -/
def isKey (descriptor : Descriptor) : Bool :=
  descriptor.kind == .scalar &&
    match descriptor.category with
    | some .string | some .integer | some .uinteger | some .boolean => true
    | _ => false

/-- The key type of a map: a string if it has to be a scalar and is not. -/
def mapKey (lowerer : Lowerer) (key : Descriptor) : Descriptor :=
  if lowerer.profile.scalarMapKeys && !isKey key then lowerer.scalar .string else key

mutual

/-- The descriptor of a type. -/
def descriptor (lowerer : Lowerer) : Node → Descriptor
  | .base _ name =>
      match Category.ofBaseType? name with
      | some category => lowerer.scalar category
      | none => lowerer.anything
  | .reference _ name => lowerer.reference name
  | .array _ element => .array (lowerer.descriptor element)
  | .map _ key value =>
      .map (lowerer.mapKey (lowerer.descriptor key))
        (wrap (lowerer.mapWrapping? value) (lowerer.descriptor value))
  | .constant _ value => { lowerer.scalar .string with constant := some value }
  | .tuple .. => lowerer.scalar .array
  | .literal .. | .intersection .. => lowerer.anything
  | .union _ members =>
      match lowerer.shape (lowerer.descriptors members) with
      | .optional member => .optional member.2
      | .empty => lowerer.anything
      | .single member => member.2
      | .several members => .ofName .union (lowerer.unionName (members.map (·.1)))

/-- Types with their descriptors. -/
def descriptors (lowerer : Lowerer) : List Node → List (Node × Descriptor)
  | [] => []
  | node :: rest => (node, lowerer.descriptor node) :: lowerer.descriptors rest

end

/-- The descriptor of a type that may be missing. -/
def descriptorOf (lowerer : Lowerer) (node : Option Node) : Descriptor :=
  (node.map lowerer.descriptor).getD lowerer.anything

/-- The descriptor of a member of a union. -/
def memberDescriptor (lowerer : Lowerer) (node : Node) : Descriptor :=
  wrap (lowerer.memberWrapping? node) (lowerer.descriptor node)

/-- The definition of a union of several members. -/
def unionOf (lowerer : Lowerer) (members : List Node) : Composite :=
  .union (lowerer.unionName members)
    (members.map fun node => ⟨lowerer.ident node, lowerer.memberDescriptor node⟩)

end Lowerer

/-- Registers the record that wraps a type, if it is wrapped. -/
def Ledger.registerWrapping (wrapping : Option Wrapping) (wrapped : Descriptor)
    (ledger : Ledger) : Ledger :=
  match wrapping with
  | some wrapping =>
      ledger.register wrapping.name (.wrapper wrapping.name wrapping.field wrapped)
  | none => ledger

namespace Lowerer

mutual

/-- Registers the composites that the descriptor of a type names.  Those inside a union come before
the union, and nothing inside a union is looked at when its name is defined already. -/
def enroll (lowerer : Lowerer) : Node → Ledger → Ledger
  | .base _ name, ledger =>
      match Category.ofBaseType? name with
      | some _ => ledger
      | none => ledger.log (.degraded (.unknownBase name))
  | .array _ element, ledger => lowerer.enroll element ledger
  | .map _ key value, ledger =>
      (lowerer.enroll value (lowerer.enroll key ledger)).registerWrapping
        (lowerer.mapWrapping? value) (lowerer.descriptor value)
  | .literal .., ledger => ledger.log (.degraded .literal)
  | .intersection .., ledger => ledger.log (.degraded .intersection)
  | .reference .., ledger | .constant .., ledger | .tuple .., ledger => ledger
  | .union _ members, ledger =>
      match lowerer.shape (lowerer.enrolments members) with
      | .optional member => member.2 ledger
      | .empty => ledger.log (.degraded .emptyUnion)
      | .single member => member.2 ledger
      | .several members =>
          let nodes := members.map (·.1)
          if ledger.defines (lowerer.unionName nodes) then
            ledger
          else
            let enrolled := members.foldl (fun ledger member =>
              (member.2 ledger).registerWrapping (lowerer.memberWrapping? member.1)
                (lowerer.descriptor member.1)) ledger
            enrolled.register (lowerer.unionName nodes) (lowerer.unionOf nodes)

/-- Types with the registration of their composites. -/
def enrolments (lowerer : Lowerer) : List Node → List (Node × (Ledger → Ledger))
  | [] => []
  | node :: rest => (node, lowerer.enroll node) :: lowerer.enrolments rest

end

/-- Registers the composites that the descriptor of a type that may be missing names. -/
def enrollOf (lowerer : Lowerer) (node : Option Node) (ledger : Ledger) : Ledger :=
  match node with
  | some node => lowerer.enroll node ledger
  | none => ledger.log (.degraded .missingType)

/-- Lowers a type in the course of a run.  Both parts come of a single pass over the type, as
`passOf_eq_lower` says. -/
def lower (lowerer : Lowerer) (node : Option Node) : StateM Ledger Descriptor := fun ledger =>
  (lowerer.descriptorOf node, lowerer.enrollOf node ledger)

theorem descriptors_eq_map (lowerer : Lowerer) (nodes : List Node) :
    lowerer.descriptors nodes = nodes.map fun node => (node, lowerer.descriptor node) := by
  induction nodes with
  | nil => rfl
  | cons node rest ih => simp [descriptors, ih]

theorem enrolments_eq_map (lowerer : Lowerer) (nodes : List Node) :
    lowerer.enrolments nodes = nodes.map fun node => (node, lowerer.enroll node) := by
  induction nodes with
  | nil => rfl
  | cons node rest ih => simp [enrolments, ih]

end Lowerer
end ProtocolCodegen
