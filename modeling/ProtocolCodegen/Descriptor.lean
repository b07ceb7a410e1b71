import ProtocolCodegen.Category

/-!
# Type descriptors

A descriptor is a type that a target language can express.  It is a flat record, so that descriptors
from elsewhere can be rendered too, whether they are well formed or not; the functions below build
the well-formed ones.
-/

namespace ProtocolCodegen

/-- The kind of a descriptor. -/
inductive TypeKind where
  /-- A base type. -/
  | scalar
  /-- A declared type. -/
  | named
  /-- A list. -/
  | array
  /-- A dictionary. -/
  | map
  /-- A type whose values can be absent. -/
  | optional
  /-- A union that is defined beside the declared types. -/
  | union
  /-- A record around a collection, defined beside the declared types. -/
  | wrapper
  /-- A type that the language cannot express. -/
  | any
  deriving DecidableEq, Repr, Inhabited

namespace TypeKind

/-- The name of a kind. -/
def name : TypeKind → String
  | .scalar => "scalar"
  | .named => "named"
  | .array => "array"
  | .map => "map"
  | .optional => "optional"
  | .union => "union"
  | .wrapper => "wrapper"
  | .any => "any"

/-- Every kind. -/
def all : List TypeKind :=
  [.scalar, .named, .array, .map, .optional, .union, .wrapper, .any]

/-- The kind of a name. -/
def ofName? (name : String) : Option TypeKind :=
  all.find? (·.name == name)

end TypeKind

/-- A type that a target language can express. -/
structure Descriptor where
  /-- The kind of type. -/
  kind : TypeKind
  /-- Its spelling or identifier. -/
  name : String
  /-- The category of a scalar. -/
  category : Option Category
  /-- The element of an array, the key and value of a map, or the type that can be absent. -/
  arguments : List Descriptor
  /-- The only value of the type. -/
  constant : Option String
  deriving Repr, Inhabited

namespace Descriptor

/-- A descriptor of a kind under a name. -/
def ofName (kind : TypeKind) (name : String) : Descriptor where
  kind := kind
  name := name
  category := none
  arguments := []
  constant := none

/-- A descriptor of a kind over other types. -/
def ofArguments (kind : TypeKind) (arguments : List Descriptor) : Descriptor where
  kind := kind
  name := ""
  category := none
  arguments := arguments
  constant := none

/-- A base type of a category. -/
def scalar (category : Category) (name : String) : Descriptor where
  kind := .scalar
  name := name
  category := some category
  arguments := []
  constant := none

/-- A list type. -/
def array (element : Descriptor) : Descriptor :=
  ofArguments .array [element]

/-- A dictionary type. -/
def map (key value : Descriptor) : Descriptor :=
  ofArguments .map [key, value]

/-- A type whose values can be absent. -/
def optional (inner : Descriptor) : Descriptor :=
  ofArguments .optional [inner]

mutual

/-- Whether two descriptors are equal. -/
def decEq : (first second : Descriptor) → Decidable (first = second)
  | ⟨kind, name, category, arguments, constant⟩,
      ⟨kind', name', category', arguments', constant'⟩ =>
    match decEqList arguments arguments' with
    | .isFalse different => .isFalse fun equal => different (Descriptor.mk.inj equal).2.2.2.1
    | .isTrue same =>
        if rest : kind = kind' ∧ name = name' ∧ category = category' ∧ constant = constant' then
          .isTrue (by rw [same, rest.1, rest.2.1, rest.2.2.1, rest.2.2.2])
        else
          .isFalse fun equal =>
            have parts := Descriptor.mk.inj equal
            rest ⟨parts.1, parts.2.1, parts.2.2.1, parts.2.2.2.2⟩

/-- Whether two lists of descriptors are equal. -/
def decEqList : (first second : List Descriptor) → Decidable (first = second)
  | [], [] => .isTrue rfl
  | [], _ :: _ => .isFalse (by simp)
  | _ :: _, [] => .isFalse (by simp)
  | first :: firsts, second :: seconds =>
      match decEq first second, decEqList firsts seconds with
      | .isTrue same, .isTrue sameRest => .isTrue (by rw [same, sameRest])
      | .isFalse different, _ => .isFalse fun equal => different (List.cons.inj equal).1
      | _, .isFalse different => .isFalse fun equal => different (List.cons.inj equal).2

end

instance : DecidableEq Descriptor := decEq

end Descriptor
end ProtocolCodegen
