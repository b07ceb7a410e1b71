import ProtocolCodegen.Descriptor
import ProtocolCodegen.Dictionary
import ProtocolCodegen.Remaining

/-!
# Proto: aliases

Proto has no type aliases, so a reference to an alias stands for the type that the alias stands for.
Aliases are followed until a type is met that is not an alias; a way that comes back to an alias, or
that ends at an alias without a type, leads to nothing.
-/

namespace ProtocolCodegen.Proto

/-- The types that aliases stand for. -/
abbrev AliasTable := Dictionary String (Option Descriptor)

theorem mem_keys_of_get? {name : String} {aliases : AliasTable} {target : Option Descriptor}
    (found : aliases.get? name = some target) : name ∈ aliases.keys := by
  induction aliases with
  | nil => simp at found
  | cons entry rest ih =>
      obtain ⟨first, old⟩ := entry
      rw [Dictionary.get?] at found
      split at found
      · rename_i same
        simp [Dictionary.keys, same]
      · simp only [Dictionary.keys, List.map_cons, List.mem_cons]
        exact Or.inr (ih found)

/-- The alias that a descriptor refers to, with the type it stands for. -/
def aliasOf? (aliases : AliasTable) (descriptor : Descriptor) : Option (Option Descriptor) :=
  if descriptor.kind = .named then aliases.get? descriptor.name else none

theorem mem_keys_of_aliasOf? {aliases : AliasTable} {descriptor : Descriptor}
    {target : Option Descriptor} (found : aliasOf? aliases descriptor = some target) :
    descriptor.name ∈ aliases.keys := by
  rw [aliasOf?] at found
  split at found
  · exact mem_keys_of_get? found
  · simp at found

/-- The type that a descriptor stands for, after aliases that were seen before. -/
def resolveFrom (aliases : AliasTable) (seen : List String) (descriptor : Descriptor) :
    Option Descriptor :=
  match found : aliasOf? aliases descriptor with
  | none => some descriptor
  | some target =>
      if fresh : descriptor.name ∈ seen then
        none
      else
        have := length_remaining_cons_lt (mem_keys_of_aliasOf? found) fresh
        match target with
        | none => none
        | some next => resolveFrom aliases (descriptor.name :: seen) next
termination_by (remaining aliases.keys seen).length

/-- The type that a descriptor stands for. -/
def resolve (aliases : AliasTable) (descriptor : Descriptor) : Option Descriptor :=
  resolveFrom aliases [] descriptor

end ProtocolCodegen.Proto
