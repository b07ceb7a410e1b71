import ProtocolCodegen.Proofs.Schema.EnumValues
import ProtocolCodegen.Proofs.Target.Kotlin.StringLiteral
import ProtocolCodegen.Proofs.Target.Proto.EnumNumbers
import ProtocolCodegen.Proofs.Target.Rendering
import ProtocolCodegen.Target.Go.File

/-!
# Constants of enumerations of whole numbers

Every language writes the values of an enumeration of whole numbers without quotes.  A value that is
a number in the document is written as the integer literal of that number, and one that is a string
as the string itself.
-/

namespace ProtocolCodegen

open Outline
open Kotlin (HoldsEach)

/-- A constant as it is written without quotes. -/
def Constant.plain : Constant → String
  | .text value => value
  | .int number => toString number
  | .float value => value.text

theorem Constant.text_toJson (constant : Constant) : constant.toJson.text = constant.plain := by
  cases constant <;> rfl

/-- A declaration is a line behind a comment. -/
def Layout.EndsWith (line : String) (lines : List String) : Prop :=
  ∃ comment, lines = comment ++ [line]

open Layout (EndsWith)

variable {declared : Outline.Enum} {values : List EnumValue}

namespace Go

/-- The line of a constant of a type. -/
def valueLine (type name literal : String) : String :=
  "\t" ++ type ++ profile.naming.typeName name ++ " " ++ type ++ " = " ++ literal

theorem holdsEach_enumText (numeric : declared.category.isNumeric = true)
    (members : declared.members = values.map Analyzer.memberOf) :
    ∃ written, (enumText declared).result = .ok written ∧
      HoldsEach (fun value => EndsWith (valueLine declared.name value.name value.value.plain))
        values written := by
  have each : List.Forall₂
      (fun value => EndsWith (valueLine declared.name value.name value.value.plain)) values
      (declared.members.map (memberLines declared)) := by
    rw [members, List.map_map, List.forall₂_map_right_iff, List.forall₂_same]
    intro value _
    refine ⟨docComment value.documentation "" "" "\t", ?_⟩
    rw [Function.comp, memberLines, numeric, ← Constant.text_toJson]
    rfl
  refine ⟨_, rfl, ?_⟩
  cases listed : declared.members with
  | nil =>
      rw [listed, List.map_nil, List.forall₂_nil_right_iff] at each
      exact ⟨_, [], [], by rw [List.flatten_nil, List.append_nil, List.append_nil], each ▸ .nil⟩
  | cons member rest =>
      refine ⟨docComment declared.notes.documentation declared.notes.since
        declared.notes.deprecated "" ++
          ["type " ++ declared.name ++ " " ++ profile.baseTypes.spell declared.category, "",
            "const ("], _, [")"], ?_, each⟩
      simp [listed, List.flatMap_def, List.append_assoc]

end Go

namespace Kotlin

/-- What comes behind the literal of a value. -/
def literalSuffix (category : Category) : String :=
  if category = .uinteger then "u" else ""

/-- A member with a value, behind which another one or none follows. -/
def IsValued (name literal : String) (lines : List String) : Prop :=
  ∃ isLast, EndsWith ("    " ++ Name.screamingSnakeCase name ++ "(" ++ literal ++ ")" ++
    if isLast = true then ";" else ",") lines

/-- The line of a member with a value, without the mark that ends it. -/
def valued (name value : String) : List String :=
  ["    " ++ name ++ "(" ++ value ++ ")"]

theorem isValued_memberLines (member : Member × String) (isLast : Bool) :
    IsValued member.1.name member.2 (memberLines valued member isLast) :=
  ⟨isLast, docComment (docLines member.1.documentation "" "") "    ",
    congrArg (· ++ _) (List.append_nil _)⟩

theorem holdsEach_valueEnumLines (category : Category) (name : String)
    (members : List (Member × String)) (comment : List String) :
    HoldsEach (fun member => IsValued member.1.name member.2) members
      (Text.unlines (comment ++ valueEnumLines category name members)) := by
  obtain ⟨start, rest, written⟩ : ∃ start rest, valueEnumLines category name members =
      start ++ (if members.isEmpty then ["    ;"] else membersLines valued members) ++ rest :=
    ⟨_, _, rfl⟩
  have each : ∀ member ∈ members, ∀ isLast,
      IsValued member.1.name member.2 (memberLines valued member isLast) :=
    fun member _ => isValued_memberLines member
  obtain ⟨lines, flat, each⟩ :=
    exists_membersLines (fun member => IsValued member.1.name member.2) each
  rw [written, ← List.append_assoc, ← List.append_assoc]
  cases members with
  | nil =>
      cases each
      exact ⟨_, [], rest, by rw [List.flatten_nil, List.append_nil], .nil⟩
  | cons member others =>
      exact ⟨comment ++ start, lines, rest, by rw [← flat]; rfl, each⟩

theorem memberValue_of_whole
    (whole : declared.category = .integer ∨ declared.category = .uinteger) (value : EnumValue) :
    memberValue declared (Analyzer.memberOf value) =
      .ok (value.value.plain ++ literalSuffix declared.category) := by
  have text : (Analyzer.memberOf value).value.text = value.value.plain := value.value.text_toJson
  rcases whole with category | category
  · simp [memberValue, literalSuffix, category, text]
  · simp [memberValue, literalSuffix, category, text]

theorem holdsEach_enumText_of_whole
    (whole : declared.category = .integer ∨ declared.category = .uinteger)
    (members : declared.members = values.map Analyzer.memberOf) :
    ∃ written, (enumText declared).result = .ok written ∧
      HoldsEach (fun value =>
          IsValued value.name (value.value.plain ++ literalSuffix declared.category))
        values written := by
  let paired := values.map fun value =>
    (Analyzer.memberOf value, value.value.plain ++ literalSuffix declared.category)
  have found : (declared.members.mapM fun member => do
      let value ← memberValue declared member
      return (member, value) : Rendering _).result = .ok paired := by
    rw [Rendering.result_mapM_eq_ok_iff, members, List.forall₂_map_left_iff,
      List.forall₂_map_right_iff, List.forall₂_same]
    intro value _
    rw [memberValue_of_whole whole]
    rfl
  have other : declared.isString = false := by
    rcases whole with category | category <;> rw [Enum.isString, category] <;> rfl
  obtain ⟨before, lines, after, written, each⟩ := holdsEach_valueEnumLines declared.category
    declared.name paired (notesComment declared.notes "")
  rw [List.forall₂_map_left_iff] at each
  refine ⟨_, ?_, before, lines, after, written, each⟩
  rw [enumText, Rendering.result_bind_eq_ok_iff]
  refine ⟨paired, found, ?_⟩
  rw [other]
  rfl

end Kotlin

namespace Proto

/-- The line of a constant under a name that begins with that of its enumeration. -/
def valueLine (start name literal : String) : String :=
  "  " ++ (start ++ "_" ++ Name.screamingSnakeCase name) ++ " = " ++ literal ++ ";"

/-- The lines of a member of an enum. -/
def memberLines (line : EnumLine) : List String :=
  line.comment ++ ["  " ++ line.name ++ " = " ++ line.number ++ ";"]

theorem enumText_eq (declared : Outline.Enum) :
    enumText declared = Text.unlines (Layout.commentLines declared.notes.documentation "" ++
      ["enum " ++ declared.name ++ " \x7b"] ++ (enumLines declared).flatMap memberLines ++
        ["\x7d"]) :=
  rfl

theorem holdsEach_enumText (plain : isNumbered declared = true ↔ KeepsValues declared)
    (numeric : declared.category.isNumeric = true)
    (members : declared.members = values.map Analyzer.memberOf)
    (whole : ∀ value ∈ values, ∃ number, value.value = .int number) :
    ∃ sorted : List EnumValue, sorted.Perm values ∧
      HoldsEach (fun value =>
          EndsWith (valueLine (enumStart declared) value.name value.value.plain))
        sorted (enumText declared) := by
  choose! number whole using whole
  let numbered (value : EnumValue) : Member × Int := (Analyzer.memberOf value, number value)
  have kept : declared.members.map (·.value) = (values.map number).map .int := by
    rw [members, List.map_map, List.map_map]
    refine List.map_congr_left fun value listed => ?_
    rw [Function.comp, Analyzer.memberOf, whole value listed]
    rfl
  have keeps : KeepsValues declared := by
    refine ⟨numeric, fun member listed => ?_⟩
    obtain ⟨value, _, same⟩ := List.mem_map.mp
      (List.map_map .. ▸ kept ▸ List.mem_map_of_mem listed)
    exact ⟨number value, same.symm⟩
  have numbering : IsNumbering declared (values.map number) :=
    ⟨fun _ => kept, fun counts => absurd keeps counts⟩
  have zipped : declared.members.zip (values.map number) = values.map numbered := by
    rw [members, List.zip_map']
  let sorted := values.filter (number · == 0) ++ values.filter (number · != 0)
  have ordered : zeroFirst (values.map numbered) = sorted.map numbered := by
    rw [zeroFirst, List.filter_map, List.filter_map, List.map_append]
    rfl
  have permuted : sorted.Perm values := List.filter_append_perm (number · == 0) values
  let line (value : EnumValue) : EnumLine :=
    memberLine (enumStart declared) (Analyzer.memberOf value) (number value)
  obtain ⟨added, lines⟩ : ∃ added, enumLines declared = added ++ sorted.map line := by
    rw [enumLines_eq plain numbering, zipped, ordered, List.map_map]
    exact ⟨_, rfl⟩
  refine ⟨sorted, permuted, Layout.commentLines declared.notes.documentation "" ++
    ["enum " ++ declared.name ++ " \x7b"] ++ added.flatMap memberLines,
    sorted.map (memberLines ∘ line), ["\x7d"], ?_, ?_⟩
  · rw [enumText_eq, lines, List.flatMap_append, List.flatMap_map, ← List.append_assoc,
      ← List.flatMap_def]
    rfl
  · rw [List.forall₂_map_right_iff, List.forall₂_same]
    intro value listed
    refine ⟨memberComment value.documentation, ?_⟩
    rw [whole value (permuted.mem_iff.mp listed)]
    rfl

end Proto

/-! ## Outlines of documents -/

theorem Json.ListsConstants.int_or_text {value : Json} {constants : List EnumValue}
    (lists : value.ListsConstants constants) {constant : EnumValue}
    (listed : constant ∈ constants) :
    (∃ number, constant.value = .int number) ∨ ∃ text, constant.value = .text text := by
  obtain ⟨items, _, each⟩ := lists
  obtain ⟨item, _, part, _, isReadAs⟩ := exists_mem_of_forall₂ each listed
  exact isReadAs.int_or_text

theorem Enumeration.category_of_isIntegral {type : Option Node}
    (integral : Enumeration.isIntegral type = true) :
    Analyzer.enumCategory type = .integer ∨ Analyzer.enumCategory type = .uinteger := by
  rcases type with _ | node
  · cases integral
  · cases node with
    | base path name =>
        rw [isIntegral, Bool.or_eq_true, beq_iff_eq, beq_iff_eq] at integral
        rcases integral with rfl | rfl
        · exact .inl rfl
        · exact .inr rfl
    | _ => cases integral

/-- Of an enumeration of whole numbers, every value that is a number in the document is read as the
whole number for which it stands; every other one is a string and is read as that.  Go and Kotlin
write all values that are selected without quotes, one after the other, so that the literals of
numbers are those of the document.  So does Proto if none of them is a string. -/
theorem integer_constants {document : Json} {model : Model}
    (accepted : Model.read document = .ok model) :
    (∃ items, document.ListsOrNull "enumerations" items ∧
      List.Forall₂ (fun item declared =>
        (Enumeration.isIntegral declared.type = true ↔ item.IsIntegral) ∧
          (item.IsIntegral → item.ListsConstants declared.values)) items model.enumerations) ∧
    ∀ (profile : Profile) (includesProposed includesMethods : Bool)
      (selection : Option (List String)) (ledger : Ledger),
      let analyzer : Analyzer := .ofModel model profile includesProposed selection
      ∀ outlined ∈ (analyzer.analyze includesMethods ledger).1.enums,
        ∃ declared ∈ model.enumerations, outlined = analyzer.enumOf declared ∧
          (Enumeration.isIntegral declared.type = true →
            let values := declared.values.filter (analyzer.admits ·.proposed)
            (∀ value ∈ values, (∃ number, value.value = .int number) ∨
              ∃ text, value.value = .text text) ∧
            (∃ written, (Go.enumText outlined).result = .ok written ∧
              HoldsEach (fun value =>
                  EndsWith (Go.valueLine outlined.name value.name value.value.plain))
                values written) ∧
            (∃ written, (Kotlin.enumText outlined).result = .ok written ∧
              HoldsEach (fun value =>
                  Kotlin.IsValued value.name
                    (value.value.plain ++ Kotlin.literalSuffix outlined.category))
                values written) ∧
            ((∀ value ∈ values, ∃ number, value.value = .int number) →
              ∃ sorted : List EnumValue, sorted.Perm values ∧
                HoldsEach (fun value =>
                    EndsWith (Proto.valueLine (Proto.enumStart outlined) value.name
                      value.value.plain))
                  sorted (Proto.enumText outlined))) := by
  obtain ⟨items, listed, each⟩ := Model.forall₂_enumerations accepted
  refine ⟨⟨items, listed, each⟩, ?_⟩
  intro profile includesProposed includesMethods selection ledger analyzer outlined generated
  obtain ⟨declared, selected, rfl⟩ : ∃ declared ∈ analyzer.enumerations,
      analyzer.enumOf declared = outlined := List.mem_map.mp generated
  have among : declared ∈ model.enumerations :=
    (Text.sortedBy_perm _ _).mem_iff.mp (List.mem_of_mem_filter selected)
  refine ⟨declared, among, rfl, ?_⟩
  intro integral values
  obtain ⟨item, _, isIntegral_iff, lists⟩ := exists_mem_of_forall₂ each among
  have whole := Enumeration.category_of_isIntegral integral
  have numeric : (Analyzer.enumCategory declared.type).isNumeric = true := by
    rcases whole with category | category <;> rw [category] <;> rfl
  exact ⟨fun value chosen =>
      (lists (isIntegral_iff.mp integral)).int_or_text (List.mem_of_mem_filter chosen),
    Go.holdsEach_enumText numeric rfl, Kotlin.holdsEach_enumText_of_whole whole rfl,
    Proto.holdsEach_enumText (Proto.isNumbered_enumOf analyzer declared) numeric rfl⟩

/-- The number 9007199254740992.0 is a constant of unsigned numbers. -/
theorem integer_constants_of_whole_float :
    let type : Json := .obj [("kind", .str "base"), ("name", .str "uinteger")]
    let value : Json :=
      .obj [("name", .str "Large"), ("value", .float (.finite false 4503599627370496 1))]
    let document : Json := .obj [("enumerations", .arr [.obj [("name", .str "Kind"),
      ("type", type), ("values", .arr [value])]])]
    let constant : EnumValue :=
      { (default : EnumValue) with name := "Large", value := .int 9007199254740992 }
    let place := ((Path.root "enumerations").item 0).field "type"
    let declared : Enumeration :=
      { (default : Enumeration) with
        name := "Kind", type := some (.base place "uinteger"), values := [constant] }
    let model : Model := { (default : Model) with enumerations := [declared] }
    let analyzer : Analyzer := .ofModel model Kotlin.profile false none
    let outlined := analyzer.enumOf declared
    Model.read document = .ok model ∧
      outlined ∈ (analyzer.analyze true ⟨[], []⟩).1.enums ∧
      ∃ written, (Kotlin.enumText outlined).result = .ok written ∧
        HoldsEach (fun value => Kotlin.IsValued value.name
          (value.value.plain ++ Kotlin.literalSuffix outlined.category)) [constant] written := by
  intro type value document constant place declared model analyzer outlined
  have accepted : Model.read document = .ok model := by cbv
  have generated : outlined ∈ (analyzer.analyze true ⟨[], []⟩).1.enums := by
    refine List.mem_map_of_mem (f := analyzer.enumOf) ?_
    have selected : analyzer.enumerations = [declared] := by cbv
    rw [selected]
    exact List.mem_singleton_self declared
  obtain ⟨_, each⟩ := integer_constants accepted
  obtain ⟨other, among, same, constants⟩ := each Kotlin.profile false true none ⟨[], []⟩ _ generated
  obtain rfl := List.mem_singleton.mp among
  obtain ⟨_, _, written, _⟩ := constants rfl
  exact ⟨accepted, generated, written⟩

/-- A string is a constant of whole numbers, and is written without quotes. -/
theorem integer_constants_of_text :
    let type : Json := .obj [("kind", .str "base"), ("name", .str "integer")]
    let value : Json := .obj [("name", .str "A"), ("value", .str "abc")]
    let document : Json := .obj [("enumerations", .arr [.obj [("name", .str "Kind"),
      ("type", type), ("values", .arr [value])]])]
    let constant : EnumValue := { (default : EnumValue) with name := "A", value := .text "abc" }
    let place := ((Path.root "enumerations").item 0).field "type"
    let declared : Enumeration :=
      { (default : Enumeration) with
        name := "Kind", type := some (.base place "integer"), values := [constant] }
    let model : Model := { (default : Model) with enumerations := [declared] }
    let outlined := (Analyzer.ofModel model Go.profile false none).enumOf declared
    Model.read document = .ok model ∧ Enumeration.isIntegral declared.type = true ∧
      Go.memberLines outlined (Analyzer.memberOf constant) = ["\tKindA Kind = abc"] := by
  intro type value document constant place declared model outlined
  have accepted : Model.read document = .ok model := by cbv
  exact ⟨accepted, rfl, by decide +kernel⟩

end ProtocolCodegen
