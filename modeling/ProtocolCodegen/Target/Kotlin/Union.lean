import ProtocolCodegen.Target.Kotlin.Text

/-!
# Kotlin: unions

A union becomes a sealed class with a serializer that selects the variant by the JSON element that
it reads: by tests on primitives if all variants are primitive, by nothing if all are objects, and
by the class of the element otherwise.
-/

namespace ProtocolCodegen.Kotlin

/-- The kind of JSON element that the values of a type are written as. -/
inductive JsonShape where
  /-- A string, number or truth value. -/
  | primitive
  /-- An array. -/
  | array
  /-- An object. -/
  | object
  deriving DecidableEq, Repr

/-- The class of the elements of a shape. -/
def JsonShape.elementClass : JsonShape → String
  | .primitive => "JsonPrimitive"
  | .array => "JsonArray"
  | .object => "JsonObject"

/-- The package of the classes and functions for JSON elements. -/
def jsonPackage : String := "kotlinx.serialization.json."

/-- The shape of the values of a category. -/
def categoryShape (category : Category) : JsonShape :=
  if category == .array then .array
  else if category.isDynamic || category == .null then .object
  else .primitive

/-- The shape of the values of a type. -/
def jsonShape : Descriptor → Except RenderError JsonShape
  | ⟨.optional, _, _, inner :: _, _⟩ => jsonShape inner
  | ⟨.optional, _, _, [], _⟩ => .error .noArgument
  | ⟨.array, _, _, _, _⟩ => .ok .array
  | ⟨.scalar, _, some category, _, _⟩ => .ok (categoryShape category)
  | ⟨.scalar, _, none, _, _⟩ => .error .noCategory
  | _ => .ok .object

/-- The property that tests whether a primitive is of a category; strings have none of this kind. -/
def testProperty? : Option Category → Option String
  | some .integer => some "intOrNull"
  | some .uinteger => some "longOrNull"
  | some .decimal => some "doubleOrNull"
  | some .boolean => some "booleanOrNull"
  | _ => none

/-- The category of what an optional type makes optional, at any depth. -/
def innerCategory : Descriptor → Except RenderError (Option Category)
  | ⟨.optional, _, _, inner :: _, _⟩ => innerCategory inner
  | ⟨.optional, _, _, [], _⟩ => .error .noArgument
  | ⟨_, _, category, _, _⟩ => .ok category

/-- The test of an element for a primitive type. -/
def primitiveTest (type : Descriptor) : Rendering String := do
  match testProperty? (← innerCategory type) with
  | some property =>
      Rendering.require [jsonPackage ++ property]
      return "element is JsonPrimitive && element." ++ property ++ " != null"
  | none => return "element is JsonPrimitive && element.isString"

/-- What the code of a variant is written from. -/
structure VariantText where
  /-- Identifier of the variant. -/
  ident : String
  /-- Its type. -/
  type : String
  /-- The shape of its values. -/
  shape : JsonShape
  /-- The test of an element, if its values are primitive. -/
  test : String

/-- What the code of a variant is written from. -/
def variantText (variant : Variant) : Rendering VariantText := do
  let shape ← jsonShape variant.type
  let type ← typeText variant.type
  let test ← if shape = .primitive then primitiveTest variant.type else pure ""
  return { ident := variant.ident, type, shape, test }

/-- How a serializer tells the variants of a union apart. -/
inductive Discrimination where
  /-- By tests on primitives. -/
  | primitive
  /-- Not at all. -/
  | object
  /-- By the class of the element. -/
  | mixed
  deriving DecidableEq, Repr

/-- How variants are told apart. -/
def discrimination (shapes : List JsonShape) : Discrimination :=
  if shapes.isEmpty then .mixed
  else if shapes.all (· == .primitive) then .primitive
  else if shapes.all (· == .object) then .object
  else .mixed

/-- The element classes that telling variants apart uses. -/
def discriminationImports (shapes : List JsonShape) : List String :=
  match discrimination shapes with
  | .primitive => [jsonPackage ++ "JsonPrimitive"]
  | .object => []
  | .mixed => shapes.map (jsonPackage ++ ·.elementClass)

/-- The names that every union uses. -/
def unionImports : List String := [
  "kotlinx.serialization.DeserializationStrategy",
  jsonPackage ++ "JsonContentPolymorphicSerializer",
  jsonPackage ++ "JsonElement"]

/-- The lines that select the serializer of a variant, `fallback` if no other fits. -/
def selectionLines (name : String) (variants : List VariantText) (fallback : VariantText) :
    List String :=
  let serializer (variant : VariantText) : String :=
    name ++ "." ++ variant.ident ++ "Value.serializer()"
  let otherwise := ["            else -> " ++ serializer fallback, "        \x7d"]
  match discrimination (variants.map (·.shape)) with
  | .object => ["        return " ++ serializer fallback]
  | .primitive =>
      ["        return when \x7b"] ++
        variants.flatMap (fun variant =>
          ["            " ++ variant.test ++ " ->", "                " ++ serializer variant]) ++
        otherwise
  | .mixed =>
      ["        return when (element) \x7b"] ++
        variants.map (fun variant =>
          "            is " ++ variant.shape.elementClass ++ " -> " ++ serializer variant) ++
        otherwise

/-- The sealed class of a union and its serializer. -/
def unionText (name : String) (variants : List Variant) : Rendering String := do
  Rendering.require unionImports
  let texts ← variants.mapM variantText
  Rendering.require (discriminationImports (texts.map (·.shape)))
  match texts with
  | [] => Rendering.ofExcept (.error .noVariants)
  | first :: _ =>
      return Text.unlines <|
        ["/**",
          " * Union type: " ++ String.intercalate " | " (texts.map (·.type)),
          " */",
          "@Serializable(with = " ++ name ++ "Serializer::class)",
          "sealed class " ++ name ++ " \x7b"] ++
        texts.flatMap (fun variant =>
          ["    @Serializable",
            "    data class " ++ variant.ident ++ "Value(val value: " ++ variant.type ++ ") : " ++
              name ++ "()"]) ++
        ["\x7d",
          "",
          "object " ++ name ++ "Serializer : JsonContentPolymorphicSerializer<" ++ name ++ ">(" ++
            name ++ "::class) \x7b",
          "    override fun selectDeserializer(element: JsonElement): DeserializationStrategy<" ++
            name ++ "> \x7b"] ++
        selectionLines name texts first ++
        ["    \x7d", "\x7d"]

end ProtocolCodegen.Kotlin
