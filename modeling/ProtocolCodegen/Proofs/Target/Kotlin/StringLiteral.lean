import Mathlib
import ProtocolCodegen.Proofs.Target.Rendering
import ProtocolCodegen.Proofs.Target.RenderableTypes
import ProtocolCodegen.Target.Kotlin.File

/-!
# Kotlin: what string literals denote

A string literal of Kotlin stands on one line, and within its quotes a backslash begins an escape
and a dollar sign a template.  The literals that are written denote their texts with the line breaks
taken out, so that the names on the wire, which have none, are denoted exactly.
-/

namespace ProtocolCodegen.Kotlin

open Outline

/-! ## Reading literals -/

/-- The signs of escapes, with the characters for which the escapes stand.  Escapes of UTF-16 units
are left out, since no literal is written with them. -/
def escapes : List (Char × Char) := [
  ('t', '\t'), ('b', '\x08'), ('n', '\n'), ('r', '\r'), ('\x27', '\x27'), ('"', '"'), ('\\', '\\'),
  ('$', '$')]

/-- Whether a character does not stand for itself within quotes.  A dollar sign can begin a template
and a line break ends the literal. -/
def isReserved (c : Char) : Bool :=
  c == '"' || c == '\\' || c == '$' || c == '\r' || c == '\n'

/-- The text of a literal from behind its opening quote; the closing quote has to come last. -/
def unescaped? : List Char → Option (List Char)
  | [] => none
  | ['"'] => some []
  | '\\' :: sign :: rest =>
      match escapes.lookup sign with
      | some c => (unescaped? rest).map (c :: ·)
      | none => none
  | c :: rest => if isReserved c then none else (unescaped? rest).map (c :: ·)

/-- The text that a string literal without templates denotes, if a text is one. -/
def literalText? (literal : String) : Option String :=
  match literal.toList with
  | '"' :: rest => (unescaped? rest).map String.ofList
  | _ => none

example : literalText? "\"a\\$b\\\\n\\\"\\n\"" = some "a$b\\n\"\n" := by decide
example : literalText? "\"$a\"" = none ∧ literalText? "\"\\q\"" = none := by decide
example : literalText? "\"a\"b\"" = none ∧ literalText? "\"a\\\"" = none := by decide

/-- A text on one line: without carriage returns, and with blanks for line feeds. -/
def onOneLine (text : List Char) : List Char :=
  (text.filter (· != '\r')).map fun c => if c = '\n' then ' ' else c

theorem onOneLine_cons (c : Char) (rest : List Char) :
    onOneLine (c :: rest) = onOneLine [c] ++ onOneLine rest := by
  rw [onOneLine, ← List.singleton_append, List.filter_append, List.map_append]
  rfl

theorem onOneLine_eq_self {text : List Char} (carriage : '\r' ∉ text) (line : '\n' ∉ text) :
    onOneLine text = text := by
  have kept : text.filter (· != '\r') = text :=
    List.filter_eq_self.mpr fun c listed => bne_iff_ne.mpr (ne_of_mem_of_not_mem listed carriage)
  have same : ∀ c ∈ text, (if c = '\n' then ' ' else c) = c :=
    fun c listed => if_neg (ne_of_mem_of_not_mem listed line)
  rw [onOneLine, kept, List.map_congr_left same, List.map_id']

/-! ## Writing literals -/

/-- A text with another one in the place of each occurrence of a character. -/
def substituted (c : Char) (replacement text : List Char) : List Char :=
  text.flatMap fun other => if other = c then replacement else [other]

/-- Escaping comes down to substitutions made one after the other.  Backslashes are the first, so
that those of other escapes stay as they are. -/
theorem flatMap_literalChar (text : List Char) :
    text.flatMap literalChar =
      substituted '\n' [' '] (substituted '\r' [] (substituted '$' ['\\', '$']
        (substituted '"' ['\\', '"'] (substituted '\\' ['\\', '\\'] text)))) := by
  simp only [substituted, List.flatMap_assoc]
  refine congrArg (text.flatMap ·) (funext fun c => ?_)
  by_cases special : c ∈ ['\\', '"', '$', '\r', '\n']
  · simp only [List.mem_cons, List.not_mem_nil, or_false] at special
    rcases special with rfl | rfl | rfl | rfl | rfl <;> rfl
  · simp only [List.mem_cons, List.not_mem_nil, or_false, not_or] at special
    obtain ⟨backslash, quote, dollar, carriage, line⟩ := special
    simp [literalChar, backslash, quote, dollar, carriage, line]

theorem unescaped?_of_not_isReserved {c : Char} (plain : isReserved c = false)
    (rest : List Char) : unescaped? (c :: rest) = (unescaped? rest).map (c :: ·) := by
  have quote : c ≠ '"' := by rintro rfl; cases plain
  have backslash : c ≠ '\\' := by rintro rfl; cases plain
  rw [unescaped?, plain, if_neg Bool.false_ne_true]
  · exact fun equal _ => quote equal
  · exact fun _ _ equal _ => backslash equal

/-- A character is written as what stands for it on one line. -/
theorem unescaped?_literalChar (c : Char) (rest : List Char) :
    unescaped? (literalChar c ++ rest) = (unescaped? rest).map (onOneLine [c] ++ ·) := by
  unfold literalChar
  split_ifs with special carriage line
  · simp only [Bool.or_eq_true, decide_eq_true_eq] at special
    rcases special with (rfl | rfl) | rfl <;> rfl
  · subst carriage
    exact Option.map_id'.symm
  · subst line
    rfl
  · have plain : isReserved c = false := by simp_all [isReserved]
    have kept : onOneLine [c] = [c] := by simp [onOneLine, carriage, line]
    rw [kept]
    exact unescaped?_of_not_isReserved plain rest

theorem unescaped?_flatMap_literalChar (text : List Char) :
    unescaped? (text.flatMap literalChar ++ ['"']) = some (onOneLine text) := by
  induction text with
  | nil => rfl
  | cons c rest induction =>
      rw [List.flatMap_cons, List.append_assoc, unescaped?_literalChar, induction,
        Option.map_some, onOneLine_cons c rest]

/-- A literal that is read back as a text on one line. -/
def Quotes (literal text : String) : Prop :=
  literalText? literal = some (String.ofList (onOneLine text.toList))

theorem quotes_stringLiteral (text : String) : Quotes (stringLiteral text) text := by
  rw [Quotes, literalText?, stringLiteral, String.toList_ofList, literalChars, List.cons_append]
  exact congrArg (Option.map String.ofList) (unescaped?_flatMap_literalChar text.toList)

theorem Quotes.eq_of_one_line {literal text : String} (quotes : Quotes literal text)
    (carriage : '\r' ∉ text.toList) (line : '\n' ∉ text.toList) :
    literalText? literal = some text := by
  rw [quotes, onOneLine_eq_self carriage line, String.ofList_toList]

/-! ## Names on the wire -/

/-- A declaration below the annotation with its name on the wire, each on a line. -/
def Annotates (wire : String) (lines : List String) : Prop :=
  ∃ comment literal line, lines = comment ++ ["    @SerialName(" ++ literal ++ ")", line] ∧
    Quotes literal wire

/-- A constant whose value is a name on the wire. -/
def Assigns (wire : String) (lines : List String) : Prop :=
  ∃ start literal, lines = [start ++ " = " ++ literal] ∧ Quotes literal wire

/-- A text holds, one after the other, the lines that are written for items. -/
def HoldsEach {α : Type} (holds : α → List String → Prop) (items : List α) (written : String) :
    Prop :=
  ∃ before lines after, written = Text.unlines (before ++ lines.flatten ++ after) ∧
    List.Forall₂ holds items lines

theorem Annotates.addComma {wire : String} {lines : List String}
    (annotates : Annotates wire lines) : Annotates wire (addComma lines) := by
  obtain ⟨comment, literal, line, rfl, quotes⟩ := annotates
  refine ⟨comment, literal, line ++ ",", ?_, quotes⟩
  simp [Kotlin.addComma, List.dropLast_append_of_ne_nil]

/-- Commas are put behind the last lines of declarations. -/
theorem exists_separated {α : Type} {holds : α → List String → Prop}
    (kept : ∀ item lines, holds item lines → holds item (addComma lines)) {items : List α}
    {lines : List (List String)} (each : List.Forall₂ holds items lines) :
    ∃ closed, separated lines = closed.flatten ∧ List.Forall₂ holds items closed := by
  induction each with
  | nil => exact ⟨[], rfl, .nil⟩
  | @cons item own items others first rest induction =>
      obtain ⟨closed, written, each⟩ := induction
      cases others with
      | nil =>
          cases rest
          exact ⟨[own], (List.append_nil own).symm, .cons first .nil⟩
      | cons next others =>
          refine ⟨addComma own :: closed, ?_, .cons (kept item own first) each⟩
          rw [separated, written, List.flatten_cons]
          exact List.cons_ne_nil next others

/-- The lines of a property of a type. -/
def propertyOf (field : Field) (type : String) : List String :=
  notesComment field.notes "    " ++
    ((serialName? field.name).map fun name => "    @SerialName(" ++ name ++ ")").toList ++
      ["    val " ++ fieldName field.name ++ ": " ++
        if field.optional then nullable type ++ " = null" else type]

theorem result_propertyLines (field : Field) :
    (propertyLines field).result = (typeTextOf field.type).map (propertyOf field) := by
  rw [propertyLines]
  cases typeTextOf field.type with
  | error => rfl
  | ok type =>
      unfold propertyOf
      cases serialName? field.name <;> rfl

/-- A property of another name is annotated. -/
theorem annotates_propertyOf {field : Field} (renamed : Name.withoutMarks field.name ≠ field.name)
    (type : String) : Annotates field.name (propertyOf field type) := by
  rw [propertyOf, serialName?, if_neg renamed, List.append_assoc]
  exact ⟨_, _, _, rfl, quotes_stringLiteral field.name⟩

theorem holdsEach_classText {declared : Outline.Class} {written : String}
    (rendered : (classText declared).result = .ok written) :
    HoldsEach (fun field lines => Name.withoutMarks field.name ≠ field.name →
      Annotates field.name lines) declared.fields written := by
  rw [classText, Rendering.result_bind_eq_ok_iff] at rendered
  obtain ⟨properties, found, rendered⟩ := rendered
  have each : List.Forall₂ (fun field lines => Name.withoutMarks field.name ≠ field.name →
      Annotates field.name lines) declared.fields properties := by
    refine (Rendering.result_mapM_eq_ok_iff.mp found).imp fun field lines found renamed => ?_
    rw [result_propertyLines] at found
    cases typed : typeTextOf field.type with
    | error => simp [typed, Except.map] at found
    | ok type =>
        rw [typed] at found
        exact Except.ok.inj found ▸ annotates_propertyOf renamed type
  obtain ⟨closed, separated_eq, eachClosed⟩ := exists_separated
    (fun field lines annotates renamed => (annotates renamed).addComma) each
  obtain rfl := Except.ok.inj rendered
  cases properties with
  | nil =>
      rw [List.forall₂_nil_right_iff.mp each]
      exact ⟨_, [], [], by rw [List.flatten_nil, List.append_nil, List.append_nil], .nil⟩
  | cons lines rest =>
      refine ⟨notesComment declared.notes "" ++ (if declared.notes.deprecated = "" then []
        else ["@Deprecated(" ++ stringLiteral declared.notes.deprecated ++ ")"]) ++
          ["@Serializable", "data class " ++ declared.name ++ "("], closed, [")"], ?_, eachClosed⟩
      rw [← separated_eq]
      simp [List.append_assoc]

/-- The annotation and the line of a member of an enumeration of strings. -/
def memberOfString (name value : String) : List String :=
  ["    @SerialName(" ++ value ++ ")", "    " ++ name]

theorem annotates_memberLines (member : Member) (isLast : Bool) :
    Annotates member.value.text
      (memberLines memberOfString (member, stringLiteral member.value.text) isLast) := by
  refine ⟨docComment (docLines member.documentation "" "") "    ",
    stringLiteral member.value.text,
    "    " ++ Name.screamingSnakeCase member.name ++ (if isLast then ";" else ","), ?_,
    quotes_stringLiteral member.value.text⟩
  exact List.append_assoc _ _ _

theorem exists_membersLines {written : String → String → List String}
    {members : List (Member × String)} (holds : Member × String → List String → Prop)
    (each : ∀ member ∈ members, ∀ isLast, holds member (memberLines written member isLast)) :
    ∃ lines, membersLines written members = lines.flatten ∧ List.Forall₂ holds members lines := by
  induction members with
  | nil => exact ⟨[], rfl, .nil⟩
  | cons member rest induction =>
      rw [List.forall_mem_cons] at each
      obtain ⟨lines, flat, eachRest⟩ := induction each.2
      cases rest with
      | nil => exact ⟨[_], (List.append_nil _).symm, .cons (each.1 true) .nil⟩
      | cons next others =>
          refine ⟨_ :: lines, ?_, .cons (each.1 false) eachRest⟩
          rw [List.flatten_cons, ← flat]
          rfl

theorem holdsEach_enumText {declared : Outline.Enum} (texts : declared.isString = true) :
    ∃ written, (enumText declared).result = .ok written ∧
      HoldsEach (fun member lines => Annotates member.value.text lines) declared.members
        written := by
  have category : declared.category = .string := beq_iff_eq.mp texts
  let members := declared.members.map fun member => (member, stringLiteral member.value.text)
  have valued : (declared.members.mapM fun member => do
      let value ← memberValue declared member
      return (member, value) : Rendering _).result = .ok members := by
    rw [Rendering.result_mapM_eq_ok_iff, List.forall₂_map_right_iff, List.forall₂_same]
    intro member _
    rw [memberValue, category]
    rfl
  have annotated : ∀ member ∈ members, ∀ isLast,
      Annotates member.1.value.text (memberLines memberOfString member isLast) := by
    refine List.forall_mem_map.mpr fun member _ isLast => ?_
    exact annotates_memberLines member isLast
  obtain ⟨lines, written, each⟩ := exists_membersLines _ annotated
  rw [List.forall₂_map_left_iff] at each
  refine ⟨Text.unlines (notesComment declared.notes "" ++
    stringEnumLines declared.name members), ?_, notesComment declared.notes "" ++
      ["@Serializable", "enum class " ++ declared.name ++ " \x7b"], lines, ["\x7d"], ?_, each⟩
  · rw [enumText, Rendering.result_bind_eq_ok_iff]
    refine ⟨members, valued, ?_⟩
    rw [texts]
    rfl
  · rw [← written, List.append_assoc, List.append_assoc]
    rfl

/-- The line of the constant of a method. -/
def constantLine (method : Method) : String :=
  "    const val " ++ Name.screamingSnakeCase method.name ++ " = " ++ stringLiteral method.method

theorem holdsEach_methodsText {config : Config} {methods : List Method} {written : String}
    (rendered : (methodsText config methods).result = .ok written) :
    HoldsEach (fun method lines => Assigns method.method lines) methods written := by
  simp only [methodsText, Rendering.result_bind_eq_ok_iff] at rendered
  obtain ⟨server, _, client, _, rendered⟩ := rendered
  obtain rfl := Except.ok.inj rendered
  refine ⟨["object LspMethods \x7b"], methods.map fun method => [constantLine method],
    ["\x7d"] ++ interfaceLines "LanguageServer" server ++ interfaceLines "LanguageClient" client,
    ?_, ?_⟩
  · simp only [← List.flatMap_def, ← List.map_eq_flatMap, List.append_assoc]
    rfl
  · rw [List.forall₂_map_right_iff, List.forall₂_same]
    exact fun method _ => ⟨_, _, rfl, quotes_stringLiteral method.method⟩

/-! ## Outlines of protocols -/

theorem exists_typeTextOf {type : Option Descriptor}
    (wellFormed : ∀ descriptor, type = some descriptor → descriptor.IsWellFormed) :
    ∃ text, typeTextOf type = .ok text := by
  cases type with
  | none => exact ⟨_, rfl⟩
  | some descriptor => exact exists_typeText_eq_ok (wellFormed descriptor rfl)

theorem exists_methodLines {method : Method}
    (params : ∀ descriptor, method.params = some descriptor → descriptor.IsWellFormed)
    (result : ∀ descriptor, method.result = some descriptor → descriptor.IsWellFormed) :
    ∃ lines, methodLines method = .ok lines := by
  obtain ⟨answer, answered⟩ := exists_typeTextOf result
  rw [methodLines, answered]
  cases given : method.params with
  | none => split <;> exact ⟨_, rfl⟩
  | some descriptor =>
      obtain ⟨type, spelled⟩ := exists_typeText_eq_ok (params descriptor given)
      simp only [spelled]
      split <;> exact ⟨_, rfl⟩

section Analysis

variable {analyzer : Analyzer} {includesMethods : Bool} {events : List Event}

theorem succeeds_classText {declared : Outline.Class}
    (listed : declared ∈ (analyzer.analyze includesMethods ⟨[], events⟩).1.classes) :
    (classText declared).Succeeds := by
  refine (Rendering.succeeds_mapM fun field owned => ?_).bind fun _ => Rendering.succeeds_pure _
  obtain ⟨type, spelled⟩ := exists_typeTextOf fun _ typed =>
    Analyzer.isWellFormed_of_hasType (.field listed owned typed)
  exact ⟨propertyOf field type, by rw [result_propertyLines, spelled]; rfl⟩

theorem succeeds_methodsText (config : Config) :
    (methodsText config
      (analyzer.analyze includesMethods ⟨[], events⟩).1.methods).Succeeds := by
  have each (asked : Bool) (received : Method → Bool) :
      ((if asked then (analyzer.analyze includesMethods ⟨[], events⟩).1.methods.filter received
        else []).mapM fun method => (methodLines method : Rendering (List String))).Succeeds := by
    refine Rendering.succeeds_mapM fun method among => ?_
    have listed : method ∈ (analyzer.analyze includesMethods ⟨[], events⟩).1.methods := by
      split at among
      · exact List.mem_of_mem_filter among
      · cases among
    exact exists_methodLines
      (fun _ given => Analyzer.isWellFormed_of_hasType (.params listed given))
      fun _ given => Analyzer.isWellFormed_of_hasType (.result listed given)
  exact (each _ _).bind fun _ => (each _ _).bind fun _ => Rendering.succeeds_pure _

end Analysis

/-- Every text is written as a literal that is read back as the text on one line, so texts of one
line have different literals, each read back exactly.  In the class of a record every property of
another name stands below the literal of its name on the wire, in the class of an enumeration of
strings every member below that of its value, and every method has a constant with that of its name.
The classes and the methods of a protocol are always written. -/
theorem writes_wire_names :
    (∀ text, Quotes (stringLiteral text) text) ∧
    (∀ literal text, Quotes literal text → '\r' ∉ text.toList → '\n' ∉ text.toList →
      literalText? literal = some text) ∧
    Set.InjOn stringLiteral {text | '\r' ∉ text.toList ∧ '\n' ∉ text.toList} ∧
    (∀ (declared : Outline.Class) (written : String),
      (classText declared).result = .ok written →
        HoldsEach (fun field lines => Name.withoutMarks field.name ≠ field.name →
          Annotates field.name lines) declared.fields written) ∧
    (∀ declared : Outline.Enum, declared.isString = true →
      ∃ written, (enumText declared).result = .ok written ∧
        HoldsEach (fun member lines => Annotates member.value.text lines) declared.members
          written) ∧
    (∀ (config : Config) (methods : List Method) (written : String),
      (methodsText config methods).result = .ok written →
        HoldsEach (fun method lines => Assigns method.method lines) methods written) ∧
    ∀ (overrides : Dictionary String Category) (model : Model)
      (includesProposed includesMethods : Bool) (selection : Option (List String))
      (events : List Event) (config : Config),
      let analyzer : Analyzer :=
        .ofModel model (profile.withOverrides overrides) includesProposed selection
      let outline := (analyzer.analyze includesMethods ⟨[], events⟩).1
      (∀ declared ∈ outline.classes, (classText declared).Succeeds) ∧
        (methodsText config outline.methods).Succeeds := by
  refine ⟨quotes_stringLiteral, fun _ _ => Quotes.eq_of_one_line, ?_,
    fun _ _ => holdsEach_classText, fun _ => holdsEach_enumText, fun _ _ _ => holdsEach_methodsText,
    fun _ _ _ _ _ _ config => ⟨fun _ => succeeds_classText, succeeds_methodsText config⟩⟩
  rintro first ⟨carriage, line⟩ second ⟨carriage', line'⟩ equal
  have read := (quotes_stringLiteral first).eq_of_one_line carriage line
  rw [equal, (quotes_stringLiteral second).eq_of_one_line carriage' line'] at read
  exact (Option.some.inj read).symm

end ProtocolCodegen.Kotlin
