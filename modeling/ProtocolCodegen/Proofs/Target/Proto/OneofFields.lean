import Mathlib
import ProtocolCodegen.Proofs.Lowering.TableForm
import ProtocolCodegen.Proofs.Outline.BuiltTypes
import ProtocolCodegen.Proofs.Target.Proto.MessageFields

/-!
# Proto: fields of oneofs

A oneof has one field for each member of its union, in order and numbered from one.  The members
have different identifiers, but the name of a field keeps neither the capitals of an identifier in
capitals nor the difference between a word `Value` and the mark of a base type.
-/

namespace ProtocolCodegen

namespace Proto

variable {aliases : AliasTable}

/-! ## Lines -/

/-- The message of a union with the fields that are written for its members. -/
def oneofOf (name : String) (fields : List WrittenField) : String :=
  Text.unlines <| ["message " ++ name ++ " \x7b", "  oneof value \x7b"] ++
    fields.map (·.line "    ") ++ ["  \x7d", "\x7d"]

theorem AreWritten.zipWith_eq_map {α β : Type} {spell : α → Except RenderError String}
    {name : α → String} {first : Nat} {items : List α} {fields : List WrittenField}
    (written : AreWritten spell name first items fields) (write : WrittenField → β) :
    List.zipWith (fun _ field => write field) items fields = fields.map write := by
  induction items generalizing first fields with
  | nil =>
      obtain rfl := areWritten_nil.mp written
      rfl
  | cons item rest induction =>
      obtain ⟨type, others, _, later, rfl⟩ := areWritten_cons.mp written
      rw [List.zipWith_cons_cons, induction later, List.map_cons]

theorem unionText_eq_ok_iff {name : String} {variants : List Variant} {text : String} :
    (unionText aliases name variants).result = .ok text ↔
      ∃ fields, AreWritten (singleText aliases ·.type) (variantName aliases) 1 variants fields ∧
        oneofOf name fields = text := by
  have writes := forall₂_zipIdx_iff (fun variant : Variant => singleText aliases variant.type)
    (variantName aliases) (fun _ field => field.line "    ") 0 variants
  have line (variant : Variant × Nat) (line : String) :
      (do
        let type ← (singleText aliases variant.1.type : Rendering String)
        return "    " ++ type ++ " " ++ variantName aliases variant.1 ++ " = " ++
          toString (variant.2 + 1) ++ ";").result = .ok line ↔
      ∃ type, singleText aliases variant.1.type = .ok type ∧
        WrittenField.line "    " ⟨type, variantName aliases variant.1, variant.2 + 1⟩ = line := by
    rw [Rendering.result_bind_eq_ok_iff]
    refine exists_congr fun type => and_congr_right fun _ => ?_
    exact ⟨Except.ok.inj, congrArg Except.ok⟩
  rw [unionText, Rendering.result_bind_eq_ok_iff]
  simp only [Rendering.result_mapM_eq_ok_iff, line]
  constructor
  · rintro ⟨lines, each, same⟩
    obtain ⟨fields, written, rfl⟩ := (writes lines).mp each
    refine ⟨fields, written, ?_⟩
    rw [oneofOf, ← written.zipWith_eq_map]
    exact Except.ok.inj same
  · rintro ⟨fields, written, rfl⟩
    refine ⟨_, (writes _).mpr ⟨fields, written, rfl⟩, ?_⟩
    rw [written.zipWith_eq_map]
    rfl

/-! ## Names -/

/-- Whether a type stands for a base type. -/
def standsForScalar (aliases : AliasTable) (type : Descriptor) : Bool :=
  ((resolve aliases type).map (·.kind == .scalar)).getD false

/-- The word for which the field of a member stands: its identifier, of which a capital stays only
at the front if there are capitals alone, and `Value` behind the identifier of a base type. -/
def fieldWord (aliases : AliasTable) (variant : Variant) : String :=
  String.ofList (Name.asWord variant.ident.toList) ++
    if standsForScalar aliases variant.type then "Value" else ""

theorem variantName_eq (aliases : AliasTable) (variant : Variant) :
    variantName aliases variant = Name.snakeCase variant.ident ++
      if standsForScalar aliases variant.type then "_value" else "" := by
  rw [variantName, standsForScalar]
  split
  · rename_i resolved found
    rw [found]
    by_cases scalar : resolved.kind = .scalar
    · simp [scalar]
    · simp [scalar]
  · rename_i missing
    simp [missing]

theorem exists_toList_fieldWord (aliases : AliasTable) {variant : Variant}
    (camel : Name.isUpperCamel variant.ident = true) :
    ∃ c rest, (fieldWord aliases variant).toList = c :: rest ∧ c.isUpper = true ∧
      rest.all Char.isAlphanum = true ∧
      (variantName aliases variant).toList =
        Name.joinWords Name.lowerCapital true (c :: rest) := by
  obtain ⟨c, rest, chars, capital, plain⟩ := Name.exists_toList_of_isWordAfter camel
  obtain ⟨behind, word, plainBehind⟩ := Name.exists_asWord (c := c) plain
  have joined : Name.snakeChars variant.ident.toList =
      Name.joinWords Name.lowerCapital true (c :: behind) := by
    rw [chars, Name.snakeChars_of_isUpper capital plain, word]
  rw [fieldWord, variantName_eq, Name.snakeCase, joined, chars, word]
  cases standsForScalar aliases variant.type with
  | false => exact ⟨c, behind, by simp, capital, plainBehind, by simp⟩
  | true =>
      refine ⟨c, behind ++ "Value".toList, by simp, capital, ?_, ?_⟩
      · rw [List.all_append, plainBehind]
        rfl
      · rw [← List.cons_append, Name.joinWords_append _ (List.cons_ne_nil c behind)]
        simp only [if_true, String.toList_append, String.toList_ofList]
        congr 1

theorem variantName_eq_iff {first second : Variant}
    (camel : Name.isUpperCamel first.ident = true)
    (camel' : Name.isUpperCamel second.ident = true) :
    variantName aliases first = variantName aliases second ↔
      fieldWord aliases first = fieldWord aliases second := by
  obtain ⟨c, rest, word, capital, plain, name⟩ := exists_toList_fieldWord aliases camel
  obtain ⟨d, rest', word', capital', plain', name'⟩ :=
    exists_toList_fieldWord aliases camel'
  rw [← String.toList_inj, name, name', Name.joinWords_inj capital capital' plain plain', ← word,
    ← word', String.toList_inj]

theorem nodup_variantNames_iff {variants : List Variant}
    (camel : ∀ variant ∈ variants, Name.isUpperCamel variant.ident = true) :
    (variants.map (variantName aliases)).Nodup ↔ (variants.map (fieldWord aliases)).Nodup := by
  simp only [List.Nodup, List.pairwise_map]
  exact List.Pairwise.iff_of_mem fun listed listed' =>
    not_congr (variantName_eq_iff (camel _ listed) (camel _ listed'))

/-- Different words, of which none is another one before `Value`, are different fields. -/
theorem nodup_fieldWords {variants : List Variant} (distinct : (variants.map (·.ident)).Nodup)
    (words : ∀ variant ∈ variants,
      Name.asWord variant.ident.toList = variant.ident.toList)
    (apart : ∀ first ∈ variants, ∀ second ∈ variants, first.ident ≠ second.ident ++ "Value") :
    (variants.map (fieldWord aliases)).Nodup := by
  have word {variant : Variant} (listed : variant ∈ variants) : fieldWord aliases variant =
      variant.ident ++ if standsForScalar aliases variant.type then "Value" else "" := by
    rw [fieldWord, words variant listed, String.ofList_toList]
  refine (List.nodup_map_iff_inj_on distinct.of_map).mpr ?_
  intro first listed second listed' same
  rw [word listed, word listed'] at same
  refine List.inj_on_of_nodup_map distinct listed listed' ?_
  -- Of two base types and of two other types the words differ as the identifiers do.
  cases scalar : standsForScalar aliases first.type with
  | true =>
      cases scalar' : standsForScalar aliases second.type with
      | true => simpa [scalar, scalar'] using same
      | false => exact absurd (by simpa [scalar, scalar'] using same.symm) (apart _ listed' _ listed)
  | false =>
      cases scalar' : standsForScalar aliases second.type with
      | true => exact absurd (by simpa [scalar, scalar'] using same) (apart _ listed _ listed')
      | false => simpa [scalar, scalar'] using same

/-- In proto, every union of an outline becomes a message whose oneof has one field for each member,
in order and numbered from one.  The members have different identifiers.  Where these are words of
ASCII letters and digits behind a capital, the names of the fields are different exactly if the words
for which they stand are; and so they are if no identifier of more than one capital is in capitals,
and none is another one before `Value`. -/
theorem oneof_fields (overrides : Dictionary String Category) (model : Model)
    (includesProposed includesMethods : Bool) (selection : Option (List String))
    (events : List Event) :
    let analyzer : Analyzer :=
      .ofModel model (profile.withOverrides overrides) includesProposed selection
    let outline := (analyzer.analyze includesMethods ⟨[], events⟩).1
    let aliases := aliasTable outline
    ∀ key name variants, (key, .union name variants) ∈ outline.composites →
      (∀ text, (unionText aliases name variants).result = .ok text ↔
        ∃ fields, oneofOf name fields = text ∧
          fields.map (Except.ok ·.type) = variants.map (singleText aliases ·.type) ∧
          fields.map (·.name) = variants.map (variantName aliases) ∧
          fields.map (·.number) = List.range' 1 variants.length) ∧
      (variants.map (·.ident)).Nodup ∧
      ((∀ variant ∈ variants, Name.isUpperCamel variant.ident = true) →
        ((variants.map (variantName aliases)).Nodup ↔
          (variants.map (fieldWord aliases)).Nodup) ∧
        ((∀ variant ∈ variants, Name.asWord variant.ident.toList = variant.ident.toList) →
          (∀ first ∈ variants, ∀ second ∈ variants, first.ident ≠ second.ident ++ "Value") →
          (variants.map (variantName aliases)).Nodup)) := by
  intro analyzer outline aliases key name variants listed
  have named := Language.namesAsStandard .proto overrides model includesProposed
  obtain ⟨place, gives⟩ := Analyzer.gives_of_mem_composites listed
  have distinct : (variants.map (·.ident)).Nodup :=
    (gives.wellFormed named).2.1.imp fun less => less.ne
  refine ⟨fun text => ?_, distinct, fun camel => ?_⟩
  · rw [unionText_eq_ok_iff]
    constructor
    · rintro ⟨fields, ⟨types, names, numbers⟩, same⟩
      exact ⟨fields, same, types, names, numbers⟩
    · rintro ⟨fields, same, types, names, numbers⟩
      exact ⟨fields, ⟨types, names, numbers⟩, same⟩
  · have characterized : (variants.map (variantName aliases)).Nodup ↔
        (variants.map (fieldWord aliases)).Nodup := nodup_variantNames_iff camel
    exact ⟨characterized, fun words apart =>
      characterized.mpr (nodup_fieldWords distinct words apart)⟩

/-- The oneof of a declared type and a string has two fields of different names. -/
theorem oneof_fields_of_range_and_string :
    let members : List Node := [.reference (.root "first") "Range", .base (.root "second") "string"]
    let record : Structure :=
      { (default : Structure) with
        name := "Options"
        properties := [{ (default : Property Node) with
          name := "range", type := .union (.root "type") members }] }
    let model : Model := { (default : Model) with structures := [record] }
    let analyzer : Analyzer := .ofModel model (profile.withOverrides []) false none
    let outline := (analyzer.analyze true ⟨[], []⟩).1
    let variants : List Variant :=
      [⟨"Range", .ofName .named "Range"⟩, ⟨"String", .scalar .string "string"⟩]
    ("Or_Range_String", .union "Or_Range_String" variants) ∈ outline.composites ∧
      (∀ variant ∈ variants, Name.isUpperCamel variant.ident = true) ∧
      (variants.map (variantName (aliasTable outline))).Nodup ∧
      variants.map (variantName (aliasTable outline)) = ["range", "string_value"] := by
  intro members record model analyzer outline variants
  have steps : analyzer.steps true = [.lower (some (.union (.root "type") members))] := by cbv
  have enrolled : (analyzer.lowerer.enroll (.union (.root "type") members) ⟨[], []⟩).composites =
      [("Or_Range_String", .union "Or_Range_String" variants)] := by cbv
  have listed : ("Or_Range_String", .union "Or_Range_String" variants) ∈ outline.composites := by
    rw [Analyzer.composites_of_single_step steps enrolled]
    exact List.mem_singleton_self _
  have camel : ∀ variant ∈ variants, Name.isUpperCamel variant.ident = true := by decide
  obtain ⟨_, _, names⟩ := oneof_fields [] model false true none [] _ _ _ listed
  exact ⟨listed, camel, (names camel).2 (by decide) (by decide), by cbv⟩

/-- The base type of integers and a declared type `Int32Value` become two fields of one name. -/
theorem variantName_eq_of_integer_and_value :
    let members : List Node :=
      [.base (.root "first") "integer", .reference (.root "second") "Int32Value"]
    let record : Structure :=
      { (default : Structure) with
        name := "Options"
        properties := [{ (default : Property Node) with
          name := "size", type := .union (.root "type") members }] }
    let model : Model :=
      { (default : Model) with
        structures := [{ (default : Structure) with name := "Int32Value" }, record] }
    let analyzer : Analyzer := .ofModel model (profile.withOverrides []) false none
    let outline := (analyzer.analyze true ⟨[], []⟩).1
    let variants : List Variant :=
      [⟨"Int32", .scalar .integer "int32"⟩, ⟨"Int32Value", .ofName .named "Int32Value"⟩]
    outline.composites = [("Or_Int32_Int32Value", .union "Or_Int32_Int32Value" variants)] ∧
      variants.map (variantName (aliasTable outline)) = ["int32_value", "int32_value"] := by
  intro members record model analyzer outline variants
  have steps : analyzer.steps true = [.lower (some (.union (.root "type") members))] := by cbv
  have enrolled : (analyzer.lowerer.enroll (.union (.root "type") members) ⟨[], []⟩).composites =
      [("Or_Int32_Int32Value", .union "Or_Int32_Int32Value" variants)] := by cbv
  exact ⟨Analyzer.composites_of_single_step steps enrolled, by cbv⟩

end Proto
end ProtocolCodegen
