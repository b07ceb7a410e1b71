import ProtocolCodegen.Proofs.Lowering.Retyping

/-!
# Overridden names

A base type can take the place of a declared one.  Wherever the declared type stood in a type or in
the definition of a composite, the base type stands then.
-/

namespace ProtocolCodegen

/-! ## Replaced types -/

namespace Descriptor

mutual

/-- The type in which another one takes the place of a declared type, at every depth. -/
def replaceNamed (name : String) (replacement : Descriptor) : Descriptor → Descriptor
  | ⟨kind, own, category, arguments, constant⟩ =>
      if kind = .named ∧ own = name then
        replacement
      else
        ⟨kind, own, category, replaceNamedAll name replacement arguments, constant⟩

/-- Types in which another one takes the place of a declared type. -/
def replaceNamedAll (name : String) (replacement : Descriptor) : List Descriptor → List Descriptor
  | [] => []
  | type :: rest =>
      replaceNamed name replacement type :: replaceNamedAll name replacement rest

end

variable (name : String) (replacement : Descriptor)

@[simp]
theorem replaceNamed_named : replaceNamed name replacement (ofName .named name) = replacement := by
  simp [ofName, replaceNamed]

theorem replaceNamed_ofName {kind : TypeKind} {own : String}
    (other : ¬(kind = .named ∧ own = name)) :
    replaceNamed name replacement (ofName kind own) = ofName kind own := by
  rw [ofName, replaceNamed, if_neg other, replaceNamedAll]

@[simp]
theorem replaceNamed_scalar (category : Category) (spelling : String) (constant : Option String) :
    replaceNamed name replacement { scalar category spelling with constant } =
      { scalar category spelling with constant } := by
  simp [scalar, replaceNamed, replaceNamedAll]

@[simp]
theorem replaceNamed_array (element : Descriptor) :
    replaceNamed name replacement (array element) =
      array (replaceNamed name replacement element) := by
  simp [array, ofArguments, replaceNamed, replaceNamedAll]

@[simp]
theorem replaceNamed_map (key value : Descriptor) :
    replaceNamed name replacement (map key value) =
      map (replaceNamed name replacement key) (replaceNamed name replacement value) := by
  simp [map, ofArguments, replaceNamed, replaceNamedAll]

@[simp]
theorem replaceNamed_optional (inner : Descriptor) :
    replaceNamed name replacement (optional inner) =
      optional (replaceNamed name replacement inner) := by
  simp [optional, ofArguments, replaceNamed, replaceNamedAll]

theorem changesNamed_replaceNamed : ChangesNamed (replaceNamed name replacement) where
  scalar := replaceNamed_scalar name replacement
  ofName _ other _ := replaceNamed_ofName name replacement fun both => other both.1
  array := replaceNamed_array name replacement
  map := replaceNamed_map name replacement
  optional := replaceNamed_optional name replacement

end Descriptor

/-- Of the names in a list no other has the identifier of a name. -/
def Naming.TellsApart (naming : Naming) (name : String) (names : List String) : Prop :=
  ∀ other ∈ names, naming.typeName other = naming.typeName name → other = name

/-! ## Lowering with one more override -/

namespace Lowerer

/-- Of two lowerers that take any keys of maps, the second also takes a name for a base type. -/
structure Overriding (lowerer : Lowerer) (name : String) (category : Category)
    (lowerer' : Lowerer) : Prop where
  shares : lowerer.SharesNames lowerer'
  anyKeys : lowerer.profile.scalarMapKeys = false
  anyKeys' : lowerer'.profile.scalarMapKeys = false
  free : lowerer.profile.overrides.get? name = none
  overrides : ∀ other, lowerer'.profile.overrides.get? other =
    if other = name then some category else lowerer.profile.overrides.get? other

/-- What becomes of a type when a name is taken for a base type. -/
def override (lowerer : Lowerer) (name : String) (category : Category) : Descriptor → Descriptor :=
  .replaceNamed (lowerer.profile.naming.typeName name) (lowerer.scalar category)

namespace Overriding

variable {lowerer lowerer' : Lowerer} {name : String} {category : Category}
  (overriding : lowerer.Overriding name category lowerer')

include overriding

theorem reference_eq {other : String}
    (apart : lowerer.profile.naming.typeName other = lowerer.profile.naming.typeName name →
      other = name) :
    lowerer'.reference other = lowerer.override name category (lowerer.reference other) := by
  rw [reference, reference, overriding.overrides, overriding.shares.naming]
  by_cases overridden : other = name
  · subst overridden
    simp [overriding.free, overriding.shares.scalar_eq, override]
  · rw [if_neg overridden]
    cases lowerer.profile.overrides.get? other with
    | some own =>
        simp only [overriding.shares.scalar_eq]
        exact (Descriptor.replaceNamed_scalar _ _ own _ none).symm
    | none => exact (Descriptor.replaceNamed_ofName _ _ fun both => overridden (apart both.2)).symm

/-- Where the overridden name is told apart, all that changes is that the base type replaces it. -/
theorem retypes {names : List String} (apart : lowerer.profile.naming.TellsApart name names) :
    Retypes (lowerer.override name category) names lowerer lowerer' where
  shares := overriding.shares
  changes := Descriptor.changesNamed_replaceNamed _ _
  reference other listed := overriding.reference_eq (apart other listed)
  mapKey key := by simp [mapKey, overriding.anyKeys, overriding.anyKeys']

end Overriding
end Lowerer
end ProtocolCodegen
