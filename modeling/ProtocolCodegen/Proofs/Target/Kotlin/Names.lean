import ProtocolCodegen.Proofs.Target.Kotlin.StringLiteral
import ProtocolCodegen.Proofs.Target.Kotlin.UnionShapes
import ProtocolCodegen.Proofs.Text.Words

/-!
# Kotlin: names in declarations

The names in a generated declaration are the last parts of paths of the serialization library that
it is known to use, names that are known without an import, and names that stand in texts which the
outline lends.
-/

namespace ProtocolCodegen.Kotlin

open Outline Text.Lexis

/-! ## Names -/

/-- The words of Kotlin that name classes, objects or constants, or the properties by which
primitives are tested: they begin with a capital letter or end with `OrNull`. -/
def lexis : Text.Lexis where
  isPart c := c.isAlphanum || c == '_'
  isNoted word := word.head?.any Char.isUpper || ['O', 'r', 'N', 'u', 'l', 'l'].isSuffixOf word
  lineFeed := rfl
  empty := rfl

example : lexis.words "element is JsonPrimitive && element.intOrNull != null" =
    ["JsonPrimitive", "intOrNull"] := by decide

/-- The name by which an imported declaration is used, the last part of its path. -/
def simpleName (path : String) : String :=
  (Text.splitOn '.' path).getLast?.getD ""

/-- Names that are used without an import: those of Kotlin, constants of an imported class, names
that the declarations of methods declare, and a word of a comment. -/
def ownNames : List String :=
  ["Any", "Deprecated", "INT", "DOUBLE", "LspMethods", "LanguageServer", "LanguageClient", "Union"]

/-- The branch that tells the variants of a union apart. -/
def IsToldBy (variants : List Variant) (branch : Discrimination) : Prop :=
  ∃ shapes, List.Forall₂ (fun variant shape => jsonShape variant.type = .ok shape) variants shapes ∧
    discrimination shapes = branch

/-- The paths of the names of the serialization library that the declarations of an outline use. -/
inductive Uses (outline : Outline) : String → Prop where
  | annotatedRecord {declared : Outline.Class} (listed : declared ∈ outline.classes) :
      Uses outline "kotlinx.serialization.Serializable"
  | annotatedEnum {declared : Outline.Enum} (listed : declared ∈ outline.enums) :
      Uses outline "kotlinx.serialization.Serializable"
  | annotatedComposite {entry : String × Composite} (listed : entry ∈ outline.composites) :
      Uses outline "kotlinx.serialization.Serializable"
  | property {declared : Outline.Class} {field : Field} (listed : declared ∈ outline.classes)
      (owned : field ∈ declared.fields) (renamed : Name.withoutMarks field.name ≠ field.name) :
      Uses outline "kotlinx.serialization.SerialName"
  | member {declared : Outline.Enum} {member : Member} (listed : declared ∈ outline.enums)
      (texts : declared.isString = true) (owned : member ∈ declared.members) :
      Uses outline "kotlinx.serialization.SerialName"
  | serializer {declared : Outline.Enum} {path : String} (listed : declared ∈ outline.enums)
      (values : declared.isString = false)
      (among : path ∈ [
        "kotlinx.serialization.KSerializer",
        "kotlinx.serialization.descriptors.PrimitiveKind",
        "kotlinx.serialization.descriptors.PrimitiveSerialDescriptor",
        "kotlinx.serialization.descriptors.SerialDescriptor",
        "kotlinx.serialization.encoding.Decoder",
        "kotlinx.serialization.encoding.Encoder"]) : Uses outline path
  | union {key name path : String} {variants : List Variant}
      (listed : (key, .union name variants) ∈ outline.composites)
      (among : path ∈ [
        "kotlinx.serialization.DeserializationStrategy",
        "kotlinx.serialization.json.JsonContentPolymorphicSerializer",
        "kotlinx.serialization.json.JsonElement"]) : Uses outline path
  | primitive {key name : String} {variants : List Variant}
      (listed : (key, .union name variants) ∈ outline.composites)
      (told : IsToldBy variants .primitive) :
      Uses outline "kotlinx.serialization.json.JsonPrimitive"
  | test {key name property : String} {variants : List Variant} {variant : Variant}
      {category : Option Category} (listed : (key, .union name variants) ∈ outline.composites)
      (told : IsToldBy variants .primitive) (owned : variant ∈ variants)
      (inner : innerCategory variant.type = .ok category)
      (tested : testProperty? category = some property) :
      Uses outline ("kotlinx.serialization.json." ++ property)
  | element {key name : String} {variants : List Variant} {variant : Variant} {shape : JsonShape}
      (listed : (key, .union name variants) ∈ outline.composites)
      (told : IsToldBy variants .mixed) (owned : variant ∈ variants)
      (shaped : jsonShape variant.type = .ok shape) :
      Uses outline ("kotlinx.serialization.json." ++ shape.elementClass)

/-- The texts of an outline that stand in its declarations as they are, or as they are written in
Kotlin. -/
inductive Lends (outline : Outline) : String → Prop where
  | className {declared : Outline.Class} (listed : declared ∈ outline.classes) :
      Lends outline declared.name
  | enumName {declared : Outline.Enum} (listed : declared ∈ outline.enums) :
      Lends outline declared.name
  | enumSerializer {declared : Outline.Enum} (listed : declared ∈ outline.enums) :
      Lends outline (declared.name ++ "Serializer")
  | aliasName {declared : Alias} (listed : declared ∈ outline.aliases) : Lends outline declared.name
  | compositeName {entry : String × Composite} (listed : entry ∈ outline.composites) :
      Lends outline entry.2.name
  | unionSerializer {key name : String} {variants : List Variant}
      (listed : (key, .union name variants) ∈ outline.composites) :
      Lends outline (name ++ "Serializer")
  | variantClass {key name : String} {variants : List Variant} {variant : Variant}
      (listed : (key, .union name variants) ∈ outline.composites) (owned : variant ∈ variants) :
      Lends outline (variant.ident ++ "Value")
  | type {type : Descriptor} {text : String} (stands : outline.HasType type)
      (spelled : typeText type = .ok text) : Lends outline text
  | classComment {declared : Outline.Class} {line : String} (listed : declared ∈ outline.classes)
      (written : line ∈ notesComment declared.notes "") : Lends outline line
  | classDeprecation {declared : Outline.Class} (listed : declared ∈ outline.classes) :
      Lends outline (stringLiteral declared.notes.deprecated)
  | fieldComment {declared : Outline.Class} {field : Field} {line : String}
      (listed : declared ∈ outline.classes) (owned : field ∈ declared.fields)
      (written : line ∈ notesComment field.notes "    ") : Lends outline line
  | fieldName {declared : Outline.Class} {field : Field} (listed : declared ∈ outline.classes)
      (owned : field ∈ declared.fields) : Lends outline (fieldName field.name)
  | fieldLiteral {declared : Outline.Class} {field : Field} (listed : declared ∈ outline.classes)
      (owned : field ∈ declared.fields) : Lends outline (stringLiteral field.name)
  | enumComment {declared : Outline.Enum} {line : String} (listed : declared ∈ outline.enums)
      (written : line ∈ notesComment declared.notes "") : Lends outline line
  | enumType {declared : Outline.Enum} (listed : declared ∈ outline.enums) :
      Lends outline (profile.baseTypes.spell declared.category)
  | enumConversion {declared : Outline.Enum} (listed : declared ∈ outline.enums) :
      Lends outline ("to" ++ profile.baseTypes.spell declared.category)
  | memberComment {declared : Outline.Enum} {member : Member} {line : String}
      (listed : declared ∈ outline.enums) (owned : member ∈ declared.members)
      (written : line ∈ docComment (docLines member.documentation "" "") "    ") :
      Lends outline line
  | memberName {declared : Outline.Enum} {member : Member} (listed : declared ∈ outline.enums)
      (owned : member ∈ declared.members) : Lends outline (Name.screamingSnakeCase member.name)
  | memberValue {declared : Outline.Enum} {member : Member} {text : String}
      (listed : declared ∈ outline.enums) (owned : member ∈ declared.members)
      (spelled : memberValue declared member = .ok text) : Lends outline text
  | aliasComment {declared : Alias} {line : String} (listed : declared ∈ outline.aliases)
      (written : line ∈ notesComment declared.notes "") : Lends outline line
  | wrapperField {key name field : String} {wrapped : Descriptor}
      (listed : (key, .wrapper name field wrapped) ∈ outline.composites) : Lends outline field
  | methodComment {method : Method} {line : String} (listed : method ∈ outline.methods)
      (written : line ∈ docComment (methodDocLines method) "    ") : Lends outline line
  | methodName {method : Method} (listed : method ∈ outline.methods) :
      Lends outline (Name.lowerFirst method.name)
  | methodConstant {method : Method} (listed : method ∈ outline.methods) :
      Lends outline (Name.screamingSnakeCase method.name)
  | methodLiteral {method : Method} (listed : method ∈ outline.methods) :
      Lends outline (stringLiteral method.method)

/-- Where a name comes from: it is imported, it is known without an import, or it stands in a text
of the outline. -/
inductive Stems (outline : Outline) (imports : List String) (word : String) : Prop where
  | imported {path : String} (among : path ∈ imports) (named : simpleName path = word)
  | own (listed : word ∈ ownNames)
  | lent {text : String} (lends : Lends outline text) (stands : word ∈ lexis.words text)

/-- All names of a text are accounted for. -/
abbrev IsCovered (outline : Outline) (imports : List String) (text : String) : Prop :=
  lexis.Tells (Stems outline imports) text

variable {config : Config} {outline : Outline} {imports : List String}

theorem Lends.isCovered {text : String} (lends : Lends outline text) :
    IsCovered outline imports text :=
  fun _ stands => .lent lends stands

theorem stems_own {word : String} (own : word ∈ ownNames) :
    ∀ name ∈ [word], Stems outline imports name :=
  List.forall_mem_singleton.mpr (.own own)

/-! ## Types -/

theorem isCovered_typeTextOf {type : Option Descriptor} {text : String}
    (stands : ∀ descriptor, type = some descriptor → outline.HasType descriptor)
    (spelled : typeTextOf type = .ok text) : IsCovered outline imports text := by
  cases type with
  | none =>
      cases spelled
      change IsCovered _ _ "Any"
      exact tells_part rfl (stems_own (by simp [ownNames]))
  | some descriptor => exact (Lends.type (stands descriptor rfl) spelled).isCovered

theorem isCovered_nullable {type : String} (tells : IsCovered outline imports type) :
    IsCovered outline imports (nullable type) := by
  rw [nullable]
  split
  · exact tells
  · exact tells.stop rfl quiet

/-! ## Records -/

/-- Marks are put behind the last lines of properties and members. -/
theorem isCovered_marked {lines : List String} {mark : List Char}
    (read : lexis.wordsOfEnd? mark = some [])
    (each : ∀ line ∈ lines, IsCovered outline imports line) :
    ∀ line ∈ lines.dropLast ++ [lines.getLast?.getD "" ++ String.ofList mark],
      IsCovered outline imports line := by
  refine List.forall_mem_append.mpr ⟨fun line among => each line (List.mem_of_mem_dropLast among),
    List.forall_mem_singleton.mpr (.stop ?_ read quiet)⟩
  cases last : lines.getLast? with
  | none => exact tells_plain rfl
  | some line => exact each line (List.mem_of_getLast? last)

theorem isCovered_separated {properties : List (List String)}
    (each : ∀ lines ∈ properties, ∀ line ∈ lines, IsCovered outline imports line) :
    ∀ line ∈ separated properties, IsCovered outline imports line := by
  have covered : List.Forall₂ (fun (_ lines : List String) =>
      ∀ line ∈ lines, IsCovered outline imports line) properties properties :=
    List.forall₂_same.mpr each
  obtain ⟨closed, flat, eachClosed⟩ :=
    exists_separated (fun _ _ => isCovered_marked rfl) covered
  rw [flat, List.forall_mem_flatten]
  intro lines among
  obtain ⟨_, _, covered⟩ := exists_mem_of_forall₂ eachClosed among
  exact covered

/-- The names that the declarations use are imported. -/
def IsSufficient (outline : Outline) (imports : List String) : Prop :=
  ∀ path, Uses outline path → path ∈ imports

theorem IsSufficient.stems (sufficient : IsSufficient outline imports) {path word : String}
    (uses : Uses outline path) (named : simpleName path = word) :
    ∀ name ∈ [word], Stems outline imports name :=
  List.forall_mem_singleton.mpr (.imported (sufficient path uses) named)

theorem isCovered_serializable (sufficient : IsSufficient outline imports)
    (uses : Uses outline "kotlinx.serialization.Serializable") :
    IsCovered outline imports "@Serializable" :=
  tells_part rfl (sufficient.stems uses (by decide +kernel))

theorem isCovered_serialName (sufficient : IsSufficient outline imports)
    (uses : Uses outline "kotlinx.serialization.SerialName") {literal : String}
    (quoted : IsCovered outline imports literal) :
    IsCovered outline imports ("    @SerialName(" ++ literal ++ ")") :=
  .stop (.start rfl (sufficient.stems uses (by decide +kernel)) quoted) rfl quiet

theorem isCovered_serializableWith (sufficient : IsSufficient outline imports)
    (uses : Uses outline "kotlinx.serialization.Serializable") {name : String}
    (serializer : IsCovered outline imports (name ++ "Serializer")) :
    IsCovered outline imports ("@Serializable(with = " ++ name ++ "Serializer::class)") := by
  have started : IsCovered outline imports ("@Serializable(with = " ++ name ++ "Serializer") := by
    rw [String.append_assoc]
    exact .start rfl (sufficient.stems uses (by decide +kernel)) serializer
  exact started.stopWord rfl rfl quiet

theorem isCovered_object {name : String}
    (serializer : IsCovered outline imports (name ++ "Serializer")) :
    IsCovered outline imports ("object " ++ name ++ "Serializer") := by
  rw [String.append_assoc]
  exact .start rfl quiet serializer

section Sufficient

variable (sufficient : IsSufficient outline imports)

include sufficient

theorem isCovered_propertyOf {declared : Outline.Class} (listed : declared ∈ outline.classes)
    {field : Field} (owned : field ∈ declared.fields) {type : String}
    (spelled : typeTextOf field.type = .ok type) :
    ∀ line ∈ propertyOf field type, IsCovered outline imports line := by
  have typed : IsCovered outline imports type :=
    isCovered_typeTextOf (fun _ same => .field listed owned same) spelled
  have named : IsCovered outline imports (fieldName field.name) :=
    (Lends.fieldName listed owned).isCovered
  rw [propertyOf, List.forall_mem_append, List.forall_mem_append, List.forall_mem_singleton]
  refine ⟨⟨fun line written => (Lends.fieldComment listed owned written).isCovered, ?_⟩,
    .fill (.start rfl quiet named) rfl quiet ?_⟩
  · rw [serialName?]
    split
    · exact List.forall_mem_nil _
    · exact List.forall_mem_singleton.mpr (isCovered_serialName sufficient
        (.property listed owned ‹_›) (Lends.fieldLiteral listed owned).isCovered)
  · split
    · exact .stop (isCovered_nullable typed) rfl quiet
    · exact typed

theorem isCovered_classText {declared : Outline.Class} (listed : declared ∈ outline.classes)
    {text : String} (rendered : (classText declared).result = .ok text) :
    IsCovered outline imports text := by
  have name : IsCovered outline imports declared.name := (Lends.className listed).isCovered
  have literal : IsCovered outline imports (stringLiteral declared.notes.deprecated) :=
    (Lends.classDeprecation listed).isCovered
  obtain ⟨properties, found, rendered⟩ := Rendering.result_bind_eq_ok_iff.mp rendered
  cases rendered
  refine tells_unlines ?_
  rw [List.forall_mem_append, List.forall_mem_append, List.forall_mem_append,
    List.forall_mem_singleton]
  refine ⟨⟨⟨fun line written => (Lends.classComment listed written).isCovered, ?_⟩,
    isCovered_serializable sufficient (.annotatedRecord listed)⟩, ?_⟩
  · split
    · exact List.forall_mem_nil _
    · exact List.forall_mem_singleton.mpr
        (.stop (.start rfl (stems_own (by simp [ownNames])) literal) rfl quiet)
  · split
    · exact List.forall_mem_singleton.mpr (.start rfl quiet name)
    · rw [List.forall_mem_append, List.forall_mem_append, List.forall_mem_singleton,
        List.forall_mem_singleton]
      refine ⟨⟨.stop (.start rfl quiet name) rfl quiet, isCovered_separated fun lines among => ?_⟩,
        tells_plain rfl⟩
      obtain ⟨field, owned, written⟩ := Rendering.exists_of_mem_of_result_mapM found among
      rw [result_propertyLines] at written
      obtain ⟨type, spelled, rfl⟩ := except_map_eq_ok_iff.mp written
      exact isCovered_propertyOf sufficient listed owned spelled

end Sufficient

/-! ## Enumerations -/

theorem isCovered_membersLines {written : String → String → List String}
    {members : List (Member × String)}
    (each : ∀ member ∈ members,
      (∀ line ∈ docComment (docLines member.1.documentation "" "") "    ",
        IsCovered outline imports line) ∧
      ∀ line ∈ written (Name.screamingSnakeCase member.1.name) member.2,
        IsCovered outline imports line) :
    ∀ line ∈ membersLines written members, IsCovered outline imports line := by
  have covered : ∀ member ∈ members, ∀ isLast, ∀ line ∈ memberLines written member isLast,
      IsCovered outline imports line := by
    intro member among isLast
    obtain ⟨comment, lines⟩ := each member among
    rw [memberLines, List.append_assoc, List.forall_mem_append]
    refine ⟨comment, ?_⟩
    cases isLast
    · exact isCovered_marked rfl lines
    · exact isCovered_marked rfl lines
  obtain ⟨lines, flat, eachLines⟩ := exists_membersLines
    (fun _ lines => ∀ line ∈ lines, IsCovered outline imports line) covered
  rw [flat, List.forall_mem_flatten]
  intro own among
  obtain ⟨_, _, told⟩ := exists_mem_of_forall₂ eachLines among
  exact told

theorem mem_of_result_memberValues {declared : Outline.Enum} {members : List (Member × String)}
    (found : (declared.members.mapM fun member => do
      let value ← memberValue declared member
      return (member, value) : Rendering _).result = .ok members) {member : Member × String}
    (among : member ∈ members) :
    member.1 ∈ declared.members ∧ memberValue declared member.1 = .ok member.2 := by
  obtain ⟨own, owned, valued⟩ := Rendering.exists_of_mem_of_result_mapM found among
  obtain ⟨value, spelled, valued⟩ := Rendering.result_bind_eq_ok_iff.mp valued
  cases valued
  exact ⟨owned, spelled⟩

theorem isCovered_serialCalls {declared : Outline.Enum} (listed : declared ∈ outline.enums) :
    let calls := serialCalls declared.category (profile.baseTypes.spell declared.category)
    IsCovered outline imports calls.kind ∧ IsCovered outline imports calls.encode ∧
      IsCovered outline imports calls.decode := by
  rw [serialCalls]
  split
  · exact ⟨tells_part rfl (stems_own (by simp [ownNames])), tells_plain rfl,
      tells_plain rfl⟩
  · refine ⟨tells_part rfl (stems_own (by simp [ownNames])), tells_plain rfl, ?_⟩
    have split : "decodeInt().to" = "decodeInt()." ++ "to" := by decide +kernel
    have conversion : IsCovered outline imports
        ("decodeInt().to" ++ profile.baseTypes.spell declared.category) := by
      rw [split, String.append_assoc]
      exact .start rfl quiet (Lends.enumConversion listed).isCovered
    exact .stop conversion rfl quiet

section Enums

variable {declared : Outline.Enum} (listed : declared ∈ outline.enums)
  (sufficient : IsSufficient outline imports)

include listed sufficient

theorem isCovered_stringEnumLines (texts : declared.isString = true)
    {members : List (Member × String)}
    (each : ∀ member ∈ members,
      member.1 ∈ declared.members ∧ memberValue declared member.1 = .ok member.2) :
    ∀ line ∈ stringEnumLines declared.name members, IsCovered outline imports line := by
  have name : IsCovered outline imports declared.name := (Lends.enumName listed).isCovered
  rw [stringEnumLines, List.forall_mem_append, List.forall_mem_append, List.forall_mem_cons,
    List.forall_mem_singleton, List.forall_mem_singleton]
  refine ⟨⟨⟨isCovered_serializable sufficient (.annotatedEnum listed),
    .stop (.start rfl quiet name) rfl quiet⟩, isCovered_membersLines fun member among => ?_⟩,
    tells_plain rfl⟩
  obtain ⟨owned, spelled⟩ := each member among
  refine ⟨fun line written => (Lends.memberComment listed owned written).isCovered, ?_⟩
  rw [List.forall_mem_cons, List.forall_mem_singleton]
  exact ⟨isCovered_serialName sufficient (.member listed texts owned)
    (Lends.memberValue listed owned spelled).isCovered,
    .start rfl quiet (Lends.memberName listed owned).isCovered⟩

theorem isCovered_valueEnumLines (values : declared.isString = false)
    {members : List (Member × String)}
    (each : ∀ member ∈ members,
      member.1 ∈ declared.members ∧ memberValue declared member.1 = .ok member.2) :
    ∀ line ∈ valueEnumLines declared.category declared.name members,
      IsCovered outline imports line := by
  have name : IsCovered outline imports declared.name := (Lends.enumName listed).isCovered
  have type : IsCovered outline imports (profile.baseTypes.spell declared.category) :=
    (Lends.enumType listed).isCovered
  have serializer : IsCovered outline imports (declared.name ++ "Serializer") :=
    (Lends.enumSerializer listed).isCovered
  have stems {path word : String} (among : path ∈ _) (named : simpleName path = word) :
      ∀ name ∈ [word], Stems outline imports name :=
    sufficient.stems (.serializer listed values among) named
  have kSerializer : ∀ name ∈ ["KSerializer"], Stems outline imports name :=
    stems (.head _) (by decide +kernel)
  have primitiveKind : ∀ name ∈ ["PrimitiveKind"], Stems outline imports name :=
    stems (.tail _ (.head _)) (by decide +kernel)
  have primitiveDescriptor : ∀ name ∈ ["PrimitiveSerialDescriptor"], Stems outline imports name :=
    stems (.tail _ (.tail _ (.head _))) (by decide +kernel)
  have descriptor : ∀ name ∈ ["SerialDescriptor"], Stems outline imports name :=
    stems (.tail _ (.tail _ (.tail _ (.head _)))) (by decide +kernel)
  have decoder : ∀ name ∈ ["Decoder"], Stems outline imports name :=
    stems (.tail _ (.tail _ (.tail _ (.tail _ (.head _))))) (by decide +kernel)
  have encoder : ∀ name ∈ ["Encoder"], Stems outline imports name :=
    stems (.tail _ (.tail _ (.tail _ (.tail _ (.tail _ (.head _)))))) (by decide +kernel)
  obtain ⟨kind, encode, decode⟩ : IsCovered outline imports _ ∧ _ ∧ _ :=
    isCovered_serialCalls listed
  rw [valueEnumLines]
  simp only [List.forall_mem_append, List.forall_mem_cons, List.not_mem_nil, false_imp_iff,
    implies_true, and_true, and_assoc]
  -- One part for each line, in the order in which they are written, but for those of members.
  refine ⟨isCovered_serializableWith sufficient (.annotatedEnum listed) serializer,
    .stop (.fill (.start rfl quiet name) rfl quiet type) rfl quiet, ?_, tells_plain rfl,
    tells_plain rfl, .stop (.fill (.start rfl quiet type) rfl quiet name) rfl quiet,
    tells_plain rfl, tells_plain rfl, tells_plain rfl, tells_plain rfl,
    .stop ((isCovered_object serializer).fillWord rfl rfl kSerializer name) rfl quiet,
    tells_part rfl descriptor,
    .stop (.fill (.start rfl primitiveDescriptor name) rfl primitiveKind kind) rfl quiet,
    tells_plain rfl, .stop (.start rfl encoder name) rfl quiet, .start rfl quiet encode,
    tells_plain rfl, tells_plain rfl, .stop (.start rfl decoder name) rfl quiet,
    .stop (.fill (.start rfl quiet name) rfl quiet decode) rfl quiet, tells_plain rfl⟩
  split
  · exact List.forall_mem_singleton.mpr (tells_plain rfl)
  · refine isCovered_membersLines fun member among => ?_
    obtain ⟨owned, spelled⟩ := each member among
    refine ⟨fun line written => (Lends.memberComment listed owned written).isCovered, ?_⟩
    exact List.forall_mem_singleton.mpr (.stop (.fill (.start rfl quiet
      (Lends.memberName listed owned).isCovered) rfl quiet
      (Lends.memberValue listed owned spelled).isCovered) rfl quiet)

theorem isCovered_enumText {text : String} (rendered : (enumText declared).result = .ok text) :
    IsCovered outline imports text := by
  obtain ⟨members, found, rendered⟩ := Rendering.result_bind_eq_ok_iff.mp rendered
  obtain ⟨_, _, rendered⟩ := Rendering.result_bind_eq_ok_iff.mp rendered
  cases rendered
  have each : ∀ member ∈ members,
      member.1 ∈ declared.members ∧ memberValue declared member.1 = .ok member.2 :=
    fun member among => mem_of_result_memberValues found among
  refine tells_unlines (List.forall_mem_append.mpr ⟨fun line written => ?_, ?_⟩)
  · exact (Lends.enumComment listed written).isCovered
  · cases texts : declared.isString with
    | true => exact isCovered_stringEnumLines listed sufficient texts each
    | false => exact isCovered_valueEnumLines listed sufficient texts each

end Enums

/-! ## Aliases and wrappers -/

theorem isCovered_aliasText {declared : Alias} (listed : declared ∈ outline.aliases)
    {text : String} (rendered : (aliasText declared).result = .ok text) :
    IsCovered outline imports text := by
  have name : IsCovered outline imports declared.name := (Lends.aliasName listed).isCovered
  obtain ⟨type, spelled, rendered⟩ := Rendering.result_bind_eq_ok_iff.mp rendered
  cases rendered
  have target : IsCovered outline imports type :=
    isCovered_typeTextOf (fun _ same => .target listed same) spelled
  refine tells_unlines (List.forall_mem_append.mpr ⟨fun line written => ?_, ?_⟩)
  · exact (Lends.aliasComment listed written).isCovered
  · exact List.forall_mem_singleton.mpr (.fill (.start rfl quiet name) rfl quiet target)

theorem isCovered_wrapperText (sufficient : IsSufficient outline imports)
    {key name field : String} {wrapped : Descriptor}
    (listed : (key, .wrapper name field wrapped) ∈ outline.composites) {text : String}
    (rendered : (wrapperText name field wrapped).result = .ok text) :
    IsCovered outline imports text := by
  have named : IsCovered outline imports name := (Lends.compositeName listed).isCovered
  have owned : IsCovered outline imports field := (Lends.wrapperField listed).isCovered
  obtain ⟨type, spelled, rendered⟩ := Rendering.result_bind_eq_ok_iff.mp rendered
  cases rendered
  have typed : IsCovered outline imports type :=
    (Lends.type (.composite listed List.mem_cons_self) spelled).isCovered
  refine tells_unlines ?_
  rw [List.forall_mem_cons, List.forall_mem_singleton]
  exact ⟨isCovered_serializable sufficient (.annotatedComposite listed),
    .stop (.fill (.fill (.start rfl quiet named) rfl quiet owned) rfl quiet typed) rfl quiet⟩

/-! ## Unions -/

theorem mem_of_testProperty? {category : Option Category} {property : String}
    (asks : testProperty? category = some property) :
    property = "intOrNull" ∨ property = "longOrNull" ∨ property = "doubleOrNull" ∨
      property = "booleanOrNull" := by
  unfold testProperty? at asks
  split at asks <;> cases asks <;> simp

theorem all_primitive_of_discrimination {shapes : List JsonShape}
    (branch : discrimination shapes = .primitive) : ∀ shape ∈ shapes, shape = .primitive := by
  unfold discrimination at branch
  split_ifs at branch with empty primitive object
  simpa using primitive

theorem IsToldBy.unique {variants : List Variant} {branch branch' : Discrimination}
    (told : IsToldBy variants branch) (told' : IsToldBy variants branch') : branch = branch' := by
  obtain ⟨shapes, shaped, rfl⟩ := told
  obtain ⟨shapes', shaped', rfl⟩ := told'
  have single : Relator.RightUnique fun (variant : Variant) (shape : JsonShape) =>
      jsonShape variant.type = .ok shape :=
    fun _ _ _ first second => Except.ok.inj (first.symm.trans second)
  rw [single.forall₂ shaped shaped']

theorem isToldBy_of_mapM {variants : List Variant} {texts : List VariantText}
    (found : (variants.mapM variantText).result = .ok texts) :
    IsToldBy variants (discrimination (texts.map (·.shape))) := by
  have written := (Rendering.result_mapM_eq_ok_iff.mp found).imp fun _ _ => isOf_of_variantText
  exact ⟨_, List.forall₂_map_right_iff.mpr (written.imp fun _ _ isOf => isOf.shape), rfl⟩

/-- The lines of a union whose variants are written from texts, the first of which is the one that
no test selects. -/
def unionLines (name : String) (texts : List VariantText) (first : VariantText) : List String :=
  ["/**",
    " * Union type: " ++ String.intercalate " | " (texts.map (·.type)),
    " */",
    "@Serializable(with = " ++ name ++ "Serializer::class)",
    "sealed class " ++ name ++ " \x7b"] ++
  texts.flatMap (fun variant =>
    ["    @Serializable",
      "    data class " ++ variant.ident ++ "Value(val value: " ++ variant.type ++ ") : " ++
        name ++ "()"]) ++
  ["\x7d",
    "",
    "object " ++ name ++ "Serializer : JsonContentPolymorphicSerializer<" ++ name ++ ">(" ++
      name ++ "::class) \x7b",
    "    override fun selectDeserializer(element: JsonElement): DeserializationStrategy<" ++
      name ++ "> \x7b"] ++
  selectionLines name texts first ++
  ["    \x7d", "\x7d"]

theorem exists_texts_of_unionText {name text : String} {variants : List Variant}
    (rendered : (unionText name variants).result = .ok text) :
    ∃ first rest, (variants.mapM variantText).result = .ok (first :: rest) ∧
      text = Text.unlines (unionLines name (first :: rest) first) := by
  obtain ⟨_, _, rendered⟩ := Rendering.result_bind_eq_ok_iff.mp rendered
  obtain ⟨texts, found, rendered⟩ := Rendering.result_bind_eq_ok_iff.mp rendered
  obtain ⟨_, _, rendered⟩ := Rendering.result_bind_eq_ok_iff.mp rendered
  cases texts with
  | nil => cases rendered
  | cons first rest => exact ⟨first, rest, found, (Except.ok.inj rendered).symm⟩

section Unions

variable {key name : String} {variants : List Variant}
  (listed : (key, .union name variants) ∈ outline.composites)

include listed

theorem isCovered_serializerCall {variant : Variant} (owned : variant ∈ variants)
    {text : VariantText} (written : text.IsOf variant) :
    IsCovered outline imports (name ++ "." ++ text.ident ++ "Value.serializer()") := by
  have named : IsCovered outline imports name := (Lends.compositeName listed).isCovered
  have started : IsCovered outline imports (name ++ "." ++ text.ident ++ "Value") := by
    rw [written.ident, String.append_assoc]
    exact .fill named rfl quiet (Lends.variantClass listed owned).isCovered
  exact started.stopWord rfl rfl quiet

variable (sufficient : IsSufficient outline imports)

include sufficient

theorem isCovered_test (told : IsToldBy variants .primitive) {variant : Variant}
    (owned : variant ∈ variants) {test : String}
    (tested : (primitiveTest variant.type).result = .ok test) :
    IsCovered outline imports test := by
  have primitive : ∀ name ∈ ["JsonPrimitive"], Stems outline imports name :=
    sufficient.stems (.primitive listed told) (by decide +kernel)
  obtain ⟨category, inner, tested⟩ := Rendering.result_bind_eq_ok_iff.mp tested
  cases asks : testProperty? category with
  | none =>
      rw [asks] at tested
      cases tested
      exact tells_part rfl primitive
  | some property =>
      rw [asks] at tested
      cases tested
      have uses := Uses.test listed told owned inner asks
      refine .stop (.start rfl primitive ?_) rfl quiet
      rcases mem_of_testProperty? asks with rfl | rfl | rfl | rfl
      · exact tells_part rfl (sufficient.stems uses (by decide +kernel))
      · exact tells_part rfl (sufficient.stems uses (by decide +kernel))
      · exact tells_part rfl (sufficient.stems uses (by decide +kernel))
      · exact tells_part rfl (sufficient.stems uses (by decide +kernel))

theorem isCovered_elementClass (told : IsToldBy variants .mixed) {variant : Variant}
    (owned : variant ∈ variants) {shape : JsonShape} (shaped : jsonShape variant.type = .ok shape) :
    IsCovered outline imports shape.elementClass := by
  have uses := Uses.element listed told owned shaped
  cases shape with
  | primitive => exact tells_part rfl (sufficient.stems uses (by decide +kernel))
  | array => exact tells_part rfl (sufficient.stems uses (by decide +kernel))
  | object => exact tells_part rfl (sufficient.stems uses (by decide +kernel))

theorem isCovered_selectionLines {texts : List VariantText} {fallback : VariantText}
    (each : ∀ text ∈ texts, ∃ variant ∈ variants, text.IsOf variant)
    (told : IsToldBy variants (discrimination (texts.map (·.shape)))) (among : fallback ∈ texts) :
    ∀ line ∈ selectionLines name texts fallback, IsCovered outline imports line := by
  have calls (text : VariantText) (among : text ∈ texts) :
      IsCovered outline imports (name ++ "." ++ text.ident ++ "Value.serializer()") := by
    obtain ⟨variant, owned, written⟩ := each text among
    exact isCovered_serializerCall listed owned written
  have otherwise : ∀ line ∈ ["            else -> " ++
      (name ++ "." ++ fallback.ident ++ "Value.serializer()"), "        \x7d"],
      IsCovered outline imports line :=
    List.forall_mem_cons.mpr ⟨.start rfl quiet (calls fallback among),
      List.forall_mem_singleton.mpr (tells_plain rfl)⟩
  rw [selectionLines]
  cases branch : discrimination (texts.map (·.shape)) with
  | object => exact List.forall_mem_singleton.mpr (.start rfl quiet (calls fallback among))
  | primitive =>
      rw [branch] at told
      have primitive := all_primitive_of_discrimination branch
      simp only [List.forall_mem_append, List.forall_mem_flatMap, List.forall_mem_singleton]
      refine ⟨⟨tells_plain rfl, fun text among => ?_⟩, otherwise⟩
      obtain ⟨variant, owned, written⟩ := each text among
      have tested := written.test (primitive _ (List.mem_map_of_mem among))
      rw [List.forall_mem_cons, List.forall_mem_singleton]
      exact ⟨.stop (.start rfl quiet (isCovered_test listed sufficient told owned tested)) rfl
        quiet, .start rfl quiet (calls text among)⟩
  | mixed =>
      rw [branch] at told
      simp only [List.forall_mem_append, List.forall_mem_map, List.forall_mem_singleton]
      refine ⟨⟨tells_plain rfl, fun text among => ?_⟩, otherwise⟩
      obtain ⟨variant, owned, written⟩ := each text among
      exact .fill (.start rfl quiet (isCovered_elementClass listed sufficient told owned
        written.shape)) rfl quiet (calls text among)

theorem isCovered_unionText {text : String}
    (rendered : (unionText name variants).result = .ok text) : IsCovered outline imports text := by
  have named : IsCovered outline imports name := (Lends.compositeName listed).isCovered
  have serializer : IsCovered outline imports (name ++ "Serializer") :=
    (Lends.unionSerializer listed).isCovered
  have uses := Uses.annotatedComposite listed
  have stems {path word : String} (among : path ∈ _) (named : simpleName path = word) :
      ∀ name ∈ [word], Stems outline imports name :=
    sufficient.stems (.union listed among) named
  have strategy : ∀ name ∈ ["DeserializationStrategy"], Stems outline imports name :=
    stems (.head _) (by decide +kernel)
  have polymorphic : ∀ name ∈ ["JsonContentPolymorphicSerializer"], Stems outline imports name :=
    stems (.tail _ (.head _)) (by decide +kernel)
  have element : ∀ name ∈ ["JsonElement"], Stems outline imports name :=
    stems (.tail _ (.tail _ (.head _))) (by decide +kernel)
  obtain ⟨first, rest, found, rfl⟩ := exists_texts_of_unionText rendered
  generalize texts_eq : first :: rest = texts at found
  have among : first ∈ texts := texts_eq ▸ List.mem_cons_self
  have each : ∀ text ∈ texts, ∃ variant ∈ variants, text.IsOf variant := by
    intro text among
    obtain ⟨variant, owned, written⟩ := Rendering.exists_of_mem_of_result_mapM found among
    exact ⟨variant, owned, isOf_of_variantText written⟩
  have typed : ∀ text ∈ texts, IsCovered outline imports text.type := by
    intro text among
    obtain ⟨variant, owned, isOf⟩ := each text among
    exact (Lends.type (.composite listed (List.mem_map_of_mem owned)) isOf.type).isCovered
  refine tells_unlines ?_
  rw [unionLines]
  simp only [List.forall_mem_append, List.forall_mem_cons, List.forall_mem_flatMap,
    List.not_mem_nil, false_imp_iff, implies_true, and_true, and_assoc]
  refine ⟨tells_plain rfl, .start rfl (stems_own (by simp [ownNames]))
      (tells_intercalate rfl quiet (List.forall_mem_map.mpr typed)),
    tells_plain rfl, isCovered_serializableWith sufficient uses serializer,
    .stop (.start rfl quiet named) rfl quiet, fun text among => ⟨?_, ?_⟩, tells_plain rfl,
    tells_plain rfl, .stop (.fill ((isCovered_object serializer).fillWord rfl rfl polymorphic
      named) rfl quiet named) rfl quiet, ?_,
    isCovered_selectionLines listed sufficient each (isToldBy_of_mapM found) among, tells_plain rfl,
    tells_plain rfl⟩
  · exact tells_part rfl (sufficient.stems uses (by decide +kernel))
  · obtain ⟨variant, owned, isOf⟩ := each text among
    have started : IsCovered outline imports ("    data class " ++ text.ident ++ "Value") := by
      rw [isOf.ident, String.append_assoc]
      exact .start rfl quiet (Lends.variantClass listed owned).isCovered
    exact .stop (.fill (started.fillWord rfl rfl quiet (typed text among)) rfl quiet named) rfl
      quiet
  · exact .stop (.start rfl (List.forall_mem_append.mpr ⟨element, strategy⟩) named) rfl quiet

end Unions

/-! ## Methods -/

/-- What a method declares of its result. -/
def resultText (method : Method) : Except RenderError String :=
  if method.isNotification || isUnit method.result then .ok ""
  else (typeTextOf method.result).map (": " ++ ·)

/-- What a method declares of its parameters. -/
def paramsText (method : Method) : Except RenderError String :=
  match method.params with
  | some params => (typeText params).map ("params: " ++ ·)
  | none => .ok ""

theorem methodLines_eq (method : Method) :
    methodLines method = do
      let result ← resultText method
      let params ← paramsText method
      return docComment (methodDocLines method) "    " ++
        ["    " ++ (if method.isNotification then "" else "suspend ") ++ "fun " ++
          Name.lowerFirst method.name ++ "(" ++ params ++ ")" ++ result] := by
  unfold methodLines resultText paramsText
  cases method.params <;> cases (method.isNotification || isUnit method.result) <;> rfl

section Methods

variable {method : Method} (listed : method ∈ outline.methods)

include listed

theorem isCovered_methodLines {lines : List String} (written : methodLines method = .ok lines) :
    ∀ line ∈ lines, IsCovered outline imports line := by
  have name : IsCovered outline imports (Name.lowerFirst method.name) :=
    (Lends.methodName listed).isCovered
  have plain : IsCovered outline imports "" := tells_plain rfl
  rw [methodLines_eq] at written
  obtain ⟨result, answered, written⟩ := except_bind_eq_ok_iff.mp written
  obtain ⟨params, given, written⟩ := except_bind_eq_ok_iff.mp written
  have coveredResult : IsCovered outline imports result := by
    rw [resultText] at answered
    split at answered
    · cases answered
      exact plain
    · obtain ⟨type, spelled, rfl⟩ := except_map_eq_ok_iff.mp answered
      exact .start rfl quiet (isCovered_typeTextOf (fun _ same => .result listed same) spelled)
  have coveredParams : IsCovered outline imports params := by
    rw [paramsText] at given
    cases params : method.params with
    | none =>
        rw [params] at given
        cases given
        exact plain
    | some descriptor =>
        rw [params] at given
        obtain ⟨type, spelled, rfl⟩ := except_map_eq_ok_iff.mp given
        exact .start rfl quiet (Lends.type (.params listed params) spelled).isCovered
  have started : IsCovered outline imports ("    " ++
      (if method.isNotification then "" else "suspend ") ++ "fun " ++
        Name.lowerFirst method.name) := by
    split
    · have joined : "    " ++ "" ++ "fun " = "    fun " := by decide +kernel
      exact joined ▸ .start rfl quiet name
    · have joined : "    " ++ "suspend " ++ "fun " = "    suspend fun " := by decide +kernel
      exact joined ▸ .start rfl quiet name
  cases written
  refine List.forall_mem_append.mpr ⟨fun line among => ?_, List.forall_mem_singleton.mpr ?_⟩
  · exact (Lends.methodComment listed among).isCovered
  · exact .fill (.fill started rfl quiet coveredParams) rfl quiet coveredResult

theorem isCovered_methodConstant :
    IsCovered outline imports (constantLine method) :=
  .fill (.start rfl quiet (Lends.methodConstant listed).isCovered) rfl quiet
    (Lends.methodLiteral listed).isCovered

end Methods

theorem isCovered_intercalate {methods : List (List String)}
    (each : ∀ lines ∈ methods, ∀ line ∈ lines, IsCovered outline imports line) :
    ∀ line ∈ List.intercalate [""] methods, IsCovered outline imports line := by
  have plain : IsCovered outline imports "" := tells_plain rfl
  induction methods with
  | nil => exact List.forall_mem_nil _
  | cons lines rest induction =>
      rw [List.forall_mem_cons] at each
      cases rest with
      | nil =>
          rw [List.intercalate_singleton]
          exact each.1
      | cons next others =>
          rw [List.intercalate_cons_cons, List.forall_mem_append, List.forall_mem_append,
            List.forall_mem_singleton]
          exact ⟨⟨each.1, plain⟩, induction each.2⟩

theorem isCovered_interfaceLines {name : String} (named : IsCovered outline imports name)
    {methods : List (List String)}
    (each : ∀ lines ∈ methods, ∀ line ∈ lines, IsCovered outline imports line) :
    ∀ line ∈ interfaceLines name methods, IsCovered outline imports line := by
  rw [interfaceLines]
  split
  · exact List.forall_mem_nil _
  · rw [List.forall_mem_append, List.forall_mem_append, List.forall_mem_cons,
      List.forall_mem_singleton, List.forall_mem_singleton]
    exact ⟨⟨⟨tells_plain rfl, .stop (.start rfl quiet named) rfl quiet⟩,
      isCovered_intercalate each⟩, tells_plain rfl⟩

theorem isCovered_methodsText {text : String}
    (rendered : (methodsText config outline.methods).result = .ok text) :
    IsCovered outline imports text := by
  have covered {asked : Bool} {receives : Method → Bool} {lines : List (List String)}
      (found : ((if asked then outline.methods.filter receives else []).mapM fun method =>
        (methodLines method : Rendering (List String))).result = .ok lines) :
      ∀ own ∈ lines, ∀ line ∈ own, IsCovered outline imports line := by
    intro own among
    obtain ⟨method, owned, written⟩ := Rendering.exists_of_mem_of_result_mapM found among
    exact isCovered_methodLines (mem_ite_filter_iff.mp owned).2.1 written
  obtain ⟨server, foundServer, rendered⟩ := Rendering.result_bind_eq_ok_iff.mp rendered
  obtain ⟨client, foundClient, rendered⟩ := Rendering.result_bind_eq_ok_iff.mp rendered
  cases rendered
  refine tells_unlines ?_
  simp only [List.forall_mem_append, List.forall_mem_cons, List.forall_mem_map,
    List.not_mem_nil, false_imp_iff, implies_true, and_true, and_assoc]
  refine ⟨tells_part rfl (stems_own (by simp [ownNames])),
    fun method => isCovered_methodConstant, tells_plain rfl, ?_, ?_⟩
  · have name : IsCovered outline imports "LanguageServer" :=
      tells_part rfl (stems_own (by simp [ownNames]))
    exact isCovered_interfaceLines name (covered foundServer)
  · have name : IsCovered outline imports "LanguageClient" :=
      tells_part rfl (stems_own (by simp [ownNames]))
    exact isCovered_interfaceLines name (covered foundClient)

end ProtocolCodegen.Kotlin
