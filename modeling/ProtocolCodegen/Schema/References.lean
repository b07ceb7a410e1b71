import ProtocolCodegen.Schema.Model
import ProtocolCodegen.Text.Sorted

/-!
# References of a type

The names that a type refers to directly: nested types are entered, declared types are not.
-/

namespace ProtocolCodegen.Node

mutual

/-- The references of a node in the order in which they stand; proposed properties of records are
left out unless they are included. -/
def references (includesProposed : Bool) : Node → List String
  | .reference _ name => [name]
  | .array _ element => references includesProposed element
  | .map _ key value => references includesProposed key ++ references includesProposed value
  | .literal _ properties => referencesOfProperties includesProposed properties
  | .union _ members | .intersection _ members | .tuple _ members =>
      referencesOfMembers includesProposed members
  | .base .. | .constant .. => []

/-- The references of a list of nodes. -/
def referencesOfMembers (includesProposed : Bool) : List Node → List String
  | [] => []
  | member :: rest =>
      references includesProposed member ++ referencesOfMembers includesProposed rest

/-- The references of a list of properties. -/
def referencesOfProperties (includesProposed : Bool) : List (Property Node) → List String
  | [] => []
  | ⟨_, type, _, proposed, _⟩ :: rest =>
      (if proposed && !includesProposed then [] else references includesProposed type) ++
        referencesOfProperties includesProposed rest

end

/-- The different references of a node in order; a missing node has none. -/
def referenceSet (includesProposed : Bool) (node : Option Node) : List String :=
  Text.sortedSet ((node.map (references includesProposed)).getD [])

end ProtocolCodegen.Node
