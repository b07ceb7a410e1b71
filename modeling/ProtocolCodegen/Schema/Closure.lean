import ProtocolCodegen.Remaining
import ProtocolCodegen.Schema.References

/-!
# Closure under references

A selection of names is closed by adding every name that can be reached from it: through the
properties, parents and mixins of records and through the types of aliases.  While proposed types
are left out, no way leads into one.  Names that are not declared stay in the selection.
-/

namespace ProtocolCodegen

/-- What following references needs to know of a protocol. -/
structure Resolver where
  /-- The protocol. -/
  model : Model
  /-- Whether proposed properties and types are followed. -/
  includesProposed : Bool
  /-- Which declared names are proposed. -/
  proposed : Dictionary String Bool

namespace Resolver

/-- The resolver of a protocol. -/
def ofModel (model : Model) (includesProposed : Bool) : Resolver where
  model := model
  includesProposed := includesProposed
  proposed := model.proposedFlags

/-- Whether a name may be followed. -/
def follows (resolver : Resolver) (name : String) : Bool :=
  resolver.includesProposed || !(resolver.proposed.get? name).getD false

/-- The names that a type leads to, in order. -/
def targets (resolver : Resolver) (node : Node) : List String :=
  (Text.sortedSet (node.references resolver.includesProposed)).filter resolver.follows

/-- The names that a declared name leads to.  A record counts before an alias of the same name. -/
def successors (resolver : Resolver) (name : String) : List String :=
  match resolver.model.declaredStructure? name with
  | some declared =>
      let properties := declared.properties.filter fun property =>
        resolver.includesProposed || !property.proposed
      properties.flatMap (fun property => resolver.targets property.type) ++
        declared.parents.flatMap resolver.targets ++ declared.mixins.flatMap resolver.targets
  | none =>
      match resolver.model.declaredAlias? name with
      | some declared => (declared.type.map resolver.targets).getD []
      | none => []

/-- The names of records and aliases, which alone lead on. -/
def origins (resolver : Resolver) : List String :=
  resolver.model.structures.map (·.name) ++ resolver.model.aliases.map (·.name)

theorem successors_eq_nil {resolver : Resolver} {name : String}
    (undeclared : name ∉ resolver.origins) : resolver.successors name = [] := by
  simp only [origins, List.mem_append, List.mem_map, not_or, not_exists, not_and] at undeclared
  have no_structure : resolver.model.declaredStructure? name = none := by
    simpa [Model.declaredStructure?, List.find?_eq_none] using undeclared.1
  have no_alias : resolver.model.declaredAlias? name = none := by
    simpa [Model.declaredAlias?, List.find?_eq_none] using undeclared.2
  simp [successors, no_structure, no_alias]

/-- Adds to the visited names, latest first, all that can be reached from the pending ones.  Every
step either drops a pending name or visits an origin for the first time. -/
def expand (resolver : Resolver) (pending visited : List String) : List String :=
  match pending with
  | [] => visited
  | name :: rest =>
      if name ∈ visited then
        resolver.expand rest visited
      else
        resolver.expand (resolver.successors name ++ rest) (name :: visited)
termination_by ((remaining resolver.origins visited).length, pending.length)
decreasing_by
  · exact Prod.Lex.right _ (by simp)
  · rename_i fresh
    by_cases origin : name ∈ resolver.origins
    · exact Prod.Lex.left _ _ (length_remaining_cons_lt origin fresh)
    · rw [successors_eq_nil origin, remaining_cons_of_not_mem visited origin]
      exact Prod.Lex.right _ (by simp)

/-- The names visited once names are resolved as well, latest first. -/
def resolve (resolver : Resolver) (names visited : List String) : List String :=
  resolver.expand (Text.sorted names) visited

/-- Of visited names, latest first, those that are not declared, earliest first. -/
def undeclared (resolver : Resolver) (visited : List String) : List String :=
  visited.reverse.filter fun name => !resolver.proposed.hasKey name

end Resolver

/-- The names of a selection and all that can be reached from them. -/
def Model.closure (model : Model) (includesProposed : Bool) (names : List String) : List String :=
  (Resolver.ofModel model includesProposed).resolve names []

end ProtocolCodegen
