import ProtocolCodegen.Proofs.Schema.References
import ProtocolCodegen.Proofs.Schema.Reordering

/-!
# Protocols without places

Every type says where in the document it stands.  Types that differ in nothing else count as the
same, and without its places a protocol has the same names, which lead to the same names.
-/

namespace ProtocolCodegen

/-! ## Types -/

namespace Node

/-- The place that is given to all types. -/
def nowhere : Path := .root ""

mutual

/-- A type that does not say where it stands, nor do the types within it. -/
def unplaced : Node → Node
  | .base _ name => .base nowhere name
  | .reference _ name => .reference nowhere name
  | .array _ element => .array nowhere (unplaced element)
  | .map _ key value => .map nowhere (unplaced key) (unplaced value)
  | .literal _ properties => .literal nowhere (unplacedProperties properties)
  | .constant _ value => .constant nowhere value
  | .union _ members => .union nowhere (unplacedMembers members)
  | .intersection _ members => .intersection nowhere (unplacedMembers members)
  | .tuple _ members => .tuple nowhere (unplacedMembers members)

/-- Types that do not say where they stand. -/
def unplacedMembers : List Node → List Node
  | [] => []
  | member :: rest => unplaced member :: unplacedMembers rest

/-- Properties whose types do not say where they stand. -/
def unplacedProperties : List (Property Node) → List (Property Node)
  | [] => []
  | ⟨name, type, optional, proposed, notes⟩ :: rest =>
      ⟨name, unplaced type, optional, proposed, notes⟩ :: unplacedProperties rest

end

end Node

/-- A property whose type does not say where it stands. -/
def Property.unplaced (property : Property Node) : Property Node :=
  { property with type := property.type.unplaced }

namespace Node

theorem unplacedMembers_eq_map (members : List Node) :
    unplacedMembers members = members.map unplaced := by
  induction members with
  | nil => rfl
  | cons member rest induction => rw [unplacedMembers, induction, List.map_cons]

theorem unplacedProperties_eq_map (properties : List (Property Node)) :
    unplacedProperties properties = properties.map Property.unplaced := by
  induction properties with
  | nil => rfl
  | cons property rest induction =>
      rw [unplacedProperties, induction, List.map_cons]
      rfl

/-! ### Comparison -/

theorem sameMembers_iff {members others : List Node}
    (each : ∀ member ∈ members, ∀ other, same member other = true ↔
      member.unplaced = other.unplaced) :
    sameMembers members others = true ↔ members.map unplaced = others.map unplaced := by
  induction members generalizing others with
  | nil => cases others <;> simp [sameMembers]
  | cons member rest induction =>
      rw [List.forall_mem_cons] at each
      cases others with
      | nil => simp [sameMembers]
      | cons other others =>
          rw [sameMembers, Bool.and_eq_true, each.1, induction each.2, List.map_cons,
            List.map_cons, List.cons.injEq]

theorem sameProperties_iff {properties others : List (Property Node)}
    (each : ∀ property ∈ properties, ∀ other, same property.type other = true ↔
      property.type.unplaced = other.unplaced) :
    sameProperties properties others = true ↔
      properties.map Property.unplaced = others.map Property.unplaced := by
  induction properties generalizing others with
  | nil => cases others <;> simp [sameProperties]
  | cons property rest induction =>
      rw [List.forall_mem_cons] at each
      cases others with
      | nil => simp [sameProperties]
      | cons other others =>
          simp only [sameProperties, Bool.and_eq_true, beq_iff_eq, each.1, induction each.2,
            List.map_cons, List.cons.injEq, Property.unplaced, Property.mk.injEq, and_assoc]

/-- Types count as the same if they differ at most in where they stand. -/
theorem same_iff {node other : Node} : same node other = true ↔ node.unplaced = other.unplaced := by
  induction node using Node.induction generalizing other with
  | base source name => cases other <;> simp [same, unplaced]
  | reference source name => cases other <;> simp [same, unplaced]
  | array source element induction => cases other <;> simp [same, unplaced, induction]
  | map source key value inductionKey inductionValue =>
      cases other <;> simp [same, unplaced, inductionKey, inductionValue]
  | literal source properties induction =>
      cases other <;> simp [same, unplaced, unplacedProperties_eq_map,
        sameProperties_iff fun property listed other => induction property listed]
  | constant source value => cases other <;> simp [same, unplaced]
  | union source members induction | intersection source members induction
  | tuple source members induction =>
      cases other <;> simp [same, unplaced, unplacedMembers_eq_map,
        sameMembers_iff fun member listed other => induction member listed]

/-! ### References -/

theorem referencesOfMembers_eq_flatMap (includesProposed : Bool) (members : List Node) :
    referencesOfMembers includesProposed members =
      members.flatMap (references includesProposed) := by
  induction members with
  | nil => rfl
  | cons member rest induction => rw [referencesOfMembers, induction, List.flatMap_cons]

theorem referencesOfProperties_eq_flatMap (includesProposed : Bool)
    (properties : List (Property Node)) :
    referencesOfProperties includesProposed properties = properties.flatMap fun property =>
      if property.proposed && !includesProposed then []
      else references includesProposed property.type := by
  induction properties with
  | nil => rfl
  | cons property rest induction => rw [referencesOfProperties, induction, List.flatMap_cons]

theorem references_unplaced (includesProposed : Bool) (node : Node) :
    node.unplaced.references includesProposed = node.references includesProposed := by
  induction node using Node.induction with
  | base | reference | constant => rfl
  | array source element induction => exact induction
  | map source key value inductionKey inductionValue =>
      rw [unplaced, references, references, inductionKey, inductionValue]
  | literal source properties induction =>
      rw [unplaced, references, references, unplacedProperties_eq_map,
        referencesOfProperties_eq_flatMap, referencesOfProperties_eq_flatMap, List.flatMap_map]
      refine List.flatMap_congr fun property listed => ?_
      rw [Property.unplaced, induction property listed]
  | union source members induction | intersection source members induction
  | tuple source members induction =>
      rw [unplaced, references, references, unplacedMembers_eq_map,
        referencesOfMembers_eq_flatMap, referencesOfMembers_eq_flatMap, List.flatMap_map]
      exact List.flatMap_congr induction

theorem referenceSet_unplaced (includesProposed : Bool) (node : Option Node) :
    referenceSet includesProposed (node.map unplaced) = referenceSet includesProposed node := by
  cases node with
  | none => rfl
  | some node => exact congrArg Text.sortedSet (references_unplaced includesProposed node)

end Node

/-! ## Declarations -/

/-- A record whose types do not say where they stand. -/
def Structure.unplaced (declared : Structure) : Structure :=
  { declared with
    properties := declared.properties.map Property.unplaced
    parents := declared.parents.map Node.unplaced
    mixins := declared.mixins.map Node.unplaced }

/-- An enumeration whose type does not say where it stands. -/
def Enumeration.unplaced (declared : Enumeration) : Enumeration :=
  { declared with type := declared.type.map Node.unplaced }

/-- An alias whose type does not say where it stands. -/
def TypeAlias.unplaced (declared : TypeAlias) : TypeAlias :=
  { declared with type := declared.type.map Node.unplaced }

/-- A request whose types do not say where they stand. -/
def Request.unplaced (request : Request) : Request :=
  { request with
    params := request.params.map Node.unplaced
    result := request.result.map Node.unplaced
    partialResult := request.partialResult.map Node.unplaced
    errorData := request.errorData.map Node.unplaced
    registrationOptions := request.registrationOptions.map Node.unplaced }

/-- A notification whose types do not say where they stand. -/
def Notification.unplaced (notification : Notification) : Notification :=
  { notification with
    params := notification.params.map Node.unplaced
    registrationOptions := notification.registrationOptions.map Node.unplaced }

namespace Model

/-- A protocol whose types do not say where they stand. -/
def unplaced (model : Model) : Model where
  version := model.version
  requests := model.requests.map Request.unplaced
  notifications := model.notifications.map Notification.unplaced
  structures := model.structures.map Structure.unplaced
  enumerations := model.enumerations.map Enumeration.unplaced
  aliases := model.aliases.map TypeAlias.unplaced

variable (model : Model) (includesProposed : Bool)

theorem declaredStructure?_unplaced (name : String) :
    model.unplaced.declaredStructure? name =
      (model.declaredStructure? name).map Structure.unplaced := by
  rw [declaredStructure?, declaredStructure?, unplaced, ← List.map_reverse, List.find?_map]
  rfl

theorem declaredAlias?_unplaced (name : String) :
    model.unplaced.declaredAlias? name = (model.declaredAlias? name).map TypeAlias.unplaced := by
  rw [declaredAlias?, declaredAlias?, unplaced, ← List.map_reverse, List.find?_map]
  rfl

theorem proposedFlags_unplaced : model.unplaced.proposedFlags = model.proposedFlags := by
  simp only [proposedFlags, unplaced, List.map_map]
  rfl

/-! ## Closures -/

theorem targets_unplaced (node : Node) :
    (Resolver.ofModel model.unplaced includesProposed).targets node.unplaced =
      (Resolver.ofModel model includesProposed).targets node := by
  have follows : (Resolver.ofModel model.unplaced includesProposed).follows =
      (Resolver.ofModel model includesProposed).follows := by
    funext name
    simp only [Resolver.follows, Resolver.ofModel, proposedFlags_unplaced]
  rw [Resolver.targets, Resolver.targets, follows]
  exact congrArg (fun names => (Text.sortedSet names).filter _)
    (node.references_unplaced includesProposed)

theorem flatMap_targets_unplaced (nodes : List Node) :
    (nodes.map Node.unplaced).flatMap (Resolver.ofModel model.unplaced includesProposed).targets =
      nodes.flatMap (Resolver.ofModel model includesProposed).targets := by
  rw [List.flatMap_map]
  exact List.flatMap_congr fun node _ => model.targets_unplaced includesProposed node

theorem flatMap_property_targets_unplaced (properties : List (Property Node)) :
    ((properties.map Property.unplaced).filter fun property =>
        includesProposed || !property.proposed).flatMap
          (fun property =>
            (Resolver.ofModel model.unplaced includesProposed).targets property.type) =
      (properties.filter fun property => includesProposed || !property.proposed).flatMap
        fun property => (Resolver.ofModel model includesProposed).targets property.type := by
  rw [List.filter_map, List.flatMap_map]
  exact List.flatMap_congr fun property _ => model.targets_unplaced includesProposed property.type

theorem successors_unplaced (name : String) :
    (Resolver.ofModel model.unplaced includesProposed).successors name =
      (Resolver.ofModel model includesProposed).successors name := by
  have own : (Resolver.ofModel model.unplaced includesProposed).model = model.unplaced := rfl
  have own' : (Resolver.ofModel model includesProposed).model = model := rfl
  rw [Resolver.successors, Resolver.successors, own, own', declaredStructure?_unplaced,
    declaredAlias?_unplaced]
  cases model.declaredStructure? name with
  | some declared =>
      have properties := model.flatMap_property_targets_unplaced includesProposed
        declared.properties
      have lent := model.flatMap_targets_unplaced includesProposed
      exact congrArg₂ (· ++ ·) (congrArg₂ (· ++ ·) properties (lent declared.parents))
        (lent declared.mixins)
  | none =>
      cases model.declaredAlias? name with
      | none => rfl
      | some declared =>
          change ((declared.type.map Node.unplaced).map _).getD [] = (declared.type.map _).getD []
          cases declared.type with
          | none => rfl
          | some node => exact model.targets_unplaced includesProposed node

theorem resolve_unplaced (names visited : List String) :
    (Resolver.ofModel model.unplaced includesProposed).resolve names visited =
      (Resolver.ofModel model includesProposed).resolve names visited :=
  Resolver.expand_eq (model.successors_unplaced includesProposed) _ _

theorem undeclared_unplaced (visited : List String) :
    (Resolver.ofModel model.unplaced includesProposed).undeclared visited =
      (Resolver.ofModel model includesProposed).undeclared visited := by
  simp only [Resolver.undeclared, Resolver.ofModel, proposedFlags_unplaced]

end Model
end ProtocolCodegen
