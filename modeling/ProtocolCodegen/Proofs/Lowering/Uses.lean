import ProtocolCodegen.Composite
import ProtocolCodegen.Outline.Basic

/-!
# Uses of composites

A descriptor uses a composite if it, or a descriptor at any depth in it, refers to a union or a
wrapping record by its name.
-/

namespace ProtocolCodegen

namespace Descriptor

/-- A descriptor is another one or stands in it at some depth. -/
inductive Within (inner : Descriptor) : Descriptor → Prop where
  | self : Within inner inner
  | argument {outer argument : Descriptor} (listed : argument ∈ outer.arguments)
      (within : Within inner argument) : Within inner outer

theorem within_iff {inner descriptor : Descriptor} :
    inner.Within descriptor ↔
      inner = descriptor ∨ ∃ argument ∈ descriptor.arguments, inner.Within argument := by
  constructor
  · intro within
    cases within with
    | self => exact .inl rfl
    | argument listed within => exact .inr ⟨_, listed, within⟩
  · rintro (rfl | ⟨argument, listed, within⟩)
    · exact .self
    · exact .argument listed within

theorem Within.trans {inner middle outer : Descriptor} (first : inner.Within middle)
    (second : middle.Within outer) : inner.Within outer := by
  induction second with
  | self => exact first
  | argument listed _ induction => exact .argument listed induction

/-- A descriptor refers to the composite of a name. -/
def RefersTo (descriptor : Descriptor) (name : String) : Prop :=
  (descriptor.kind = .union ∨ descriptor.kind = .wrapper) ∧ descriptor.name = name

/-- A reference to the composite of a name stands in a descriptor. -/
def Uses (descriptor : Descriptor) (name : String) : Prop :=
  ∃ inner : Descriptor, inner.Within descriptor ∧ inner.RefersTo name

theorem uses_iff {descriptor : Descriptor} {name : String} :
    descriptor.Uses name ↔
      descriptor.RefersTo name ∨ ∃ argument ∈ descriptor.arguments, argument.Uses name := by
  constructor
  · rintro ⟨inner, within, refers⟩
    rcases within_iff.mp within with rfl | ⟨argument, listed, within⟩
    · exact .inl refers
    · exact .inr ⟨argument, listed, inner, within, refers⟩
  · rintro (refers | ⟨argument, listed, inner, within, refers⟩)
    · exact ⟨descriptor, .self, refers⟩
    · exact ⟨inner, .argument listed within, refers⟩

@[simp]
theorem uses_ofName {kind : TypeKind} {own name : String} :
    (ofName kind own).Uses name ↔ (kind = .union ∨ kind = .wrapper) ∧ own = name := by
  rw [uses_iff]
  simp [RefersTo, ofName]

@[simp]
theorem not_uses_scalar {category : Category} {own name : String} :
    ¬(scalar category own).Uses name := by
  rw [uses_iff]
  simp [RefersTo, scalar]

@[simp]
theorem not_uses_constant {category : Category} {own name value : String} :
    ¬({ scalar category own with constant := some value } : Descriptor).Uses name := by
  rw [uses_iff]
  simp [RefersTo, scalar]

@[simp]
theorem uses_array {element : Descriptor} {name : String} :
    (array element).Uses name ↔ element.Uses name := by
  rw [uses_iff]
  simp [RefersTo, array, ofArguments]

@[simp]
theorem uses_map {key value : Descriptor} {name : String} :
    (map key value).Uses name ↔ key.Uses name ∨ value.Uses name := by
  rw [uses_iff]
  simp [RefersTo, map, ofArguments]

@[simp]
theorem uses_optional {inner : Descriptor} {name : String} :
    (optional inner).Uses name ↔ inner.Uses name := by
  rw [uses_iff]
  simp [RefersTo, optional, ofArguments]

end Descriptor

namespace Composite

/-- The descriptors in a definition. -/
def descriptors : Composite → List Descriptor
  | .union _ variants => variants.map (·.type)
  | .wrapper _ _ wrapped => [wrapped]

/-- A reference to the composite of a name stands in a definition. -/
def Uses (composite : Composite) (name : String) : Prop :=
  ∃ descriptor ∈ composite.descriptors, descriptor.Uses name

end Composite

namespace Outline

/-- A type stands in a field, an alias, a method or the definition of a composite. -/
inductive HasType (outline : Outline) (type : Descriptor) : Prop where
  | field {declared : Class} {field : Field} (listed : declared ∈ outline.classes)
      (owned : field ∈ declared.fields) (typed : field.type = some type)
  | target {declared : Alias} (listed : declared ∈ outline.aliases)
      (typed : declared.target = some type)
  | params {method : Method} (listed : method ∈ outline.methods)
      (typed : method.params = some type)
  | result {method : Method} (listed : method ∈ outline.methods)
      (typed : method.result = some type)
  | composite {entry : String × Composite} (listed : entry ∈ outline.composites)
      (inside : type ∈ entry.2.descriptors)

/-- A reference to the composite of a name stands in a field, an alias, a method or the definition
of another composite. -/
inductive Uses (outline : Outline) (name : String) : Prop where
  | field {declared : Class} {field : Field} {type : Descriptor}
      (listed : declared ∈ outline.classes) (owned : field ∈ declared.fields)
      (typed : field.type = some type) (uses : type.Uses name)
  | target {declared : Alias} {target : Descriptor} (listed : declared ∈ outline.aliases)
      (typed : declared.target = some target) (uses : target.Uses name)
  | params {method : Method} {params : Descriptor} (listed : method ∈ outline.methods)
      (typed : method.params = some params) (uses : params.Uses name)
  | result {method : Method} {result : Descriptor} (listed : method ∈ outline.methods)
      (typed : method.result = some result) (uses : result.Uses name)
  | composite {entry : String × Composite} (listed : entry ∈ outline.composites)
      (uses : entry.2.Uses name)

theorem Uses.exists_type {outline : Outline} {name : String} (uses : outline.Uses name) :
    ∃ type, outline.HasType type ∧ type.Uses name := by
  cases uses with
  | field listed owned typed uses => exact ⟨_, .field listed owned typed, uses⟩
  | target listed typed uses => exact ⟨_, .target listed typed, uses⟩
  | params listed typed uses => exact ⟨_, .params listed typed, uses⟩
  | result listed typed uses => exact ⟨_, .result listed typed, uses⟩
  | composite listed uses =>
      obtain ⟨type, inside, uses⟩ := uses
      exact ⟨type, .composite listed inside, uses⟩

end Outline
end ProtocolCodegen
