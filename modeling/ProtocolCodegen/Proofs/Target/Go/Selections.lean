import ProtocolCodegen.Proofs.Lowering.Uses
import ProtocolCodegen.Proofs.Target.Go.Written
import ProtocolCodegen.Proofs.Text.Words

/-!
# Go: selections from packages

Declarations of other packages are selected by words with dots.  Every such word of a generated
declaration selects from one of the packages that it is known to use, unless it stands in a text
that the outline lends.
-/

namespace ProtocolCodegen.Go

open Outline Text.Lexis

/-! ## Selections -/

/-- The words of Go with dots between their parts, which can select from packages. -/
def lexis : Text.Lexis where
  isPart c := c.isAlphanum || c == '_' || c == '.'
  isNoted word := word.contains '.'
  lineFeed := rfl
  empty := rfl

example : lexis.words "\t\treturn json.Marshal(x)" = ["json.Marshal"] := by decide

/-- The name by which declarations of a package are selected, the last part of its path. -/
def selector (path : String) : String :=
  (Text.splitOn '/' path).getLast?.getD ""

/-- A word selects a declaration of a package. -/
def Selects (path word : String) : Prop :=
  ∃ member, word = selector path ++ "." ++ member

/-- Words with dots that select from no package: the value of a union, and the ends of comments. -/
def ownWords : List String :=
  ["t.Value", "t.Value.", "names.", "interface."]

/-- The packages of which the declarations of an outline select: unions that are marshalled use
`encoding/json` and `fmt`, and interfaces with methods use `context`. -/
inductive Uses (config : Config) (outline : Outline) : String → Prop where
  | union {key name path : String} {variants : List Variant} (asked : config.generateJson = true)
      (listed : (key, .union name variants) ∈ outline.composites)
      (among : path ∈ ["encoding/json", "fmt"]) : Uses config outline path
  | interface {method : Method} (listed : method ∈ outline.methods)
      (received : IsReceived config method) : Uses config outline "context"

/-- The texts of an outline that stand in its declarations as they are, or as they are written in
Go. -/
inductive Lends (outline : Outline) : String → Prop where
  | className {declared : Outline.Class} (listed : declared ∈ outline.classes) :
      Lends outline declared.name
  | enumName {declared : Outline.Enum} (listed : declared ∈ outline.enums) :
      Lends outline declared.name
  | aliasName {declared : Alias} (listed : declared ∈ outline.aliases) : Lends outline declared.name
  | compositeName {entry : String × Composite} (listed : entry ∈ outline.composites) :
      Lends outline entry.2.name
  | type {type : Descriptor} {text : String} (stands : outline.HasType type)
      (spelled : typeText type = .ok text) : Lends outline text
  | classComment {declared : Outline.Class} {line : String} (listed : declared ∈ outline.classes)
      (written : line ∈ docComment declared.notes.documentation declared.notes.since
        declared.notes.deprecated "") : Lends outline line
  | fieldComment {declared : Outline.Class} {field : Field} {line : String}
      (listed : declared ∈ outline.classes) (owned : field ∈ declared.fields)
      (written : line ∈ docComment field.notes.documentation "" field.notes.deprecated "\t") :
      Lends outline line
  | fieldName {declared : Outline.Class} {field : Field} (listed : declared ∈ outline.classes)
      (owned : field ∈ declared.fields) : Lends outline (fieldName field.name)
  | fieldTag {declared : Outline.Class} {field : Field} (listed : declared ∈ outline.classes)
      (owned : field ∈ declared.fields) : Lends outline field.name
  | enumComment {declared : Outline.Enum} {line : String} (listed : declared ∈ outline.enums)
      (written : line ∈ docComment declared.notes.documentation declared.notes.since
        declared.notes.deprecated "") : Lends outline line
  | enumType {declared : Outline.Enum} (listed : declared ∈ outline.enums) :
      Lends outline (profile.baseTypes.spell declared.category)
  | memberComment {declared : Outline.Enum} {member : Member} {line : String}
      (listed : declared ∈ outline.enums) (owned : member ∈ declared.members)
      (written : line ∈ docComment member.documentation "" "" "\t") : Lends outline line
  | memberName {declared : Outline.Enum} {member : Member} (listed : declared ∈ outline.enums)
      (owned : member ∈ declared.members) :
      Lends outline (declared.name ++ profile.naming.typeName member.name)
  | memberValue {declared : Outline.Enum} {member : Member} (listed : declared ∈ outline.enums)
      (owned : member ∈ declared.members) :
      Lends outline (if declared.category.isNumeric then member.value.text
        else stringLiteral member.value.text)
  | aliasComment {declared : Alias} {line : String} (listed : declared ∈ outline.aliases)
      (written : line ∈ docComment declared.notes.documentation declared.notes.since
        declared.notes.deprecated "") : Lends outline line
  | wrapperField {key name field : String} {wrapped : Descriptor}
      (listed : (key, .wrapper name field wrapped) ∈ outline.composites) :
      Lends outline (Go.fieldName field)
  | wrapperTag {key name field : String} {wrapped : Descriptor}
      (listed : (key, .wrapper name field wrapped) ∈ outline.composites) : Lends outline field
  | methodComment {method : Method} {line : String} (listed : method ∈ outline.methods)
      (written : line ∈ docComment method.documentation method.since "" "\t") : Lends outline line
  | methodName {method : Method} (listed : method ∈ outline.methods) : Lends outline method.name
  | methodConstant {method : Method} (listed : method ∈ outline.methods) :
      Lends outline ("Method" ++ method.name)
  | methodLiteral {method : Method} (listed : method ∈ outline.methods) :
      Lends outline (stringLiteral method.method)

/-- Where a word with dots comes from: it selects from an imported package, it is one of those that
select from none, or it stands in a text of the outline. -/
inductive Stems (outline : Outline) (imports : List String) (word : String) : Prop where
  | selection {path : String} (imported : path ∈ imports) (selects : Selects path word)
  | own (listed : word ∈ ownWords)
  | lent {text : String} (lends : Lends outline text) (stands : word ∈ lexis.words text)

/-- All words with dots of a text are accounted for. -/
abbrev IsCovered (outline : Outline) (imports : List String) (text : String) : Prop :=
  lexis.Tells (Stems outline imports) text

variable {config : Config} {outline : Outline} {imports : List String}

theorem Lends.isCovered {text : String} (lends : Lends outline text) :
    IsCovered outline imports text :=
  fun _ stands => .lent lends stands

/-! ## Words of declarations -/

theorem isCovered_typeTextOf {type : Option Descriptor} {text : String}
    (stands : ∀ descriptor, type = some descriptor → outline.HasType descriptor)
    (spelled : typeTextOf type = .ok text) : IsCovered outline imports text := by
  cases type with
  | none =>
      cases spelled
      change IsCovered _ _ "any"
      exact tells_plain rfl
  | some descriptor => exact (Lends.type (stands descriptor rfl) spelled).isCovered

theorem isCovered_pointer {type : String} (tells : IsCovered outline imports type) :
    IsCovered outline imports (pointer type) := by
  rw [pointer]
  split
  · exact tells
  · exact .start rfl quiet tells

theorem isCovered_fieldLine {name type tag : String}
    (named : IsCovered outline imports name)
    (typed : IsCovered outline imports type)
    (tagged : IsCovered outline imports tag) :
    IsCovered outline imports (fieldLine name type tag) :=
  .stop (.fill (.fill (.start rfl quiet named) rfl quiet typed) rfl quiet tagged) rfl quiet

theorem isCovered_fieldLines {declared : Outline.Class} (listed : declared ∈ outline.classes)
    {field : Field} (owned : field ∈ declared.fields) {lines : List String}
    (written : fieldLines field = .ok lines) :
    ∀ line ∈ lines, IsCovered outline imports line := by
  rw [fieldLines] at written
  cases spelled : typeTextOf field.type with
  | error => rw [spelled] at written; cases written
  | ok type =>
      rw [spelled] at written
      cases written
      have typed : IsCovered outline imports type :=
        isCovered_typeTextOf (fun _ same => .field listed owned same) spelled
      have named : IsCovered outline imports (fieldName field.name) :=
        (Lends.fieldName listed owned).isCovered
      have tagged : IsCovered outline imports field.name := (Lends.fieldTag listed owned).isCovered
      refine List.forall_mem_append.mpr ⟨fun line written => ?_, List.forall_mem_singleton.mpr ?_⟩
      · exact (Lends.fieldComment listed owned written).isCovered
      · split
        · exact isCovered_fieldLine named (isCovered_pointer typed) (.stop tagged rfl quiet)
        · exact isCovered_fieldLine named typed tagged

theorem isCovered_structText {declared : Outline.Class} (listed : declared ∈ outline.classes)
    {text : String} (rendered : (structText declared).result = .ok text) :
    IsCovered outline imports text := by
  have name : IsCovered outline imports declared.name := (Lends.className listed).isCovered
  obtain ⟨fields, found, rendered⟩ := Rendering.result_bind_eq_ok_iff.mp rendered
  cases rendered
  refine tells_unlines (List.forall_mem_append.mpr ⟨fun line written => ?_, ?_⟩)
  · exact (Lends.classComment listed written).isCovered
  split
  · exact List.forall_mem_singleton.mpr (.stop (.start rfl quiet name) rfl quiet)
  · rw [List.forall_mem_append, List.forall_mem_append, List.forall_mem_singleton,
      List.forall_mem_singleton, List.forall_mem_flatten]
    refine ⟨⟨.stop (.start rfl quiet name) rfl quiet, fun lines among => ?_⟩,
      tells_plain rfl⟩
    obtain ⟨field, owned, written⟩ := Rendering.exists_of_mem_of_result_mapM found among
    exact isCovered_fieldLines listed owned written

theorem isCovered_memberLines {declared : Outline.Enum} (listed : declared ∈ outline.enums)
    {member : Member} (owned : member ∈ declared.members) :
    ∀ line ∈ memberLines declared member, IsCovered outline imports line := by
  have type : IsCovered outline imports declared.name := (Lends.enumName listed).isCovered
  have name : IsCovered outline imports (declared.name ++ profile.naming.typeName member.name) :=
    (Lends.memberName listed owned).isCovered
  rw [memberLines]
  refine List.forall_mem_append.mpr ⟨fun line written => ?_, List.forall_mem_singleton.mpr ?_⟩
  · exact (Lends.memberComment listed owned written).isCovered
  · have start : IsCovered outline imports
        ("\t" ++ declared.name ++ profile.naming.typeName member.name) := by
      rw [String.append_assoc]
      exact .start rfl quiet name
    exact .fill (.fill start rfl quiet type) rfl quiet (Lends.memberValue listed owned).isCovered

theorem isCovered_enumText {declared : Outline.Enum} (listed : declared ∈ outline.enums)
    {text : String} (rendered : (enumText declared).result = .ok text) :
    IsCovered outline imports text := by
  have name : IsCovered outline imports declared.name := (Lends.enumName listed).isCovered
  have type : IsCovered outline imports (profile.baseTypes.spell declared.category) :=
    (Lends.enumType listed).isCovered
  cases rendered
  refine tells_unlines ?_
  rw [List.forall_mem_append, List.forall_mem_append, List.forall_mem_singleton]
  refine ⟨⟨fun line written => (Lends.enumComment listed written).isCovered,
    .fill (.start rfl quiet name) rfl quiet type⟩, ?_⟩
  split
  · exact List.forall_mem_nil _
  · rw [List.forall_mem_append, List.forall_mem_append, List.forall_mem_cons,
      List.forall_mem_singleton, List.forall_mem_singleton, List.forall_mem_flatMap]
    exact ⟨⟨⟨tells_plain rfl, tells_plain rfl⟩,
      fun member owned => isCovered_memberLines listed owned⟩, tells_plain rfl⟩

theorem isCovered_aliasText {declared : Alias} (listed : declared ∈ outline.aliases)
    {text : String} (rendered : (aliasText declared).result = .ok text) :
    IsCovered outline imports text := by
  have name : IsCovered outline imports declared.name := (Lends.aliasName listed).isCovered
  obtain ⟨type, spelled, rendered⟩ := Rendering.result_bind_eq_ok_iff.mp rendered
  cases rendered
  have target : IsCovered outline imports type :=
    isCovered_typeTextOf (fun _ same => .target listed same) spelled
  refine tells_unlines (List.forall_mem_append.mpr ⟨fun line written => ?_, ?_⟩)
  · exact (Lends.aliasComment listed written).isCovered
  · exact List.forall_mem_singleton.mpr (.fill (.start rfl quiet name) rfl quiet target)

theorem isCovered_wrapperText {key name field : String} {wrapped : Descriptor}
    (listed : (key, .wrapper name field wrapped) ∈ outline.composites) {text : String}
    (rendered : (wrapperText name field wrapped).result = .ok text) :
    IsCovered outline imports text := by
  have named : IsCovered outline imports name := (Lends.compositeName listed).isCovered
  obtain ⟨type, spelled, rendered⟩ := Rendering.result_bind_eq_ok_iff.mp rendered
  cases rendered
  have typed : IsCovered outline imports type :=
    (Lends.type (.composite listed List.mem_cons_self) spelled).isCovered
  refine tells_unlines ?_
  rw [List.forall_mem_cons, List.forall_mem_cons, List.forall_mem_singleton]
  exact ⟨.stop (.start rfl quiet named) rfl quiet, isCovered_fieldLine
    (Lends.wrapperField listed).isCovered typed (Lends.wrapperTag listed).isCovered,
    tells_plain rfl⟩

theorem stems_own {word : String} (own : word ∈ ownWords) :
    ∀ name ∈ [word], Stems outline imports name :=
  List.forall_mem_singleton.mpr (.own own)

theorem isCovered_holder (index : Nat) : IsCovered outline imports ("h" ++ toString index) := by
  have digits : ∀ c ∈ (toString index).toList, c.isAlphanum = true := by
    intro c listed
    rw [Nat.toString_eq_ofList_toDigits, String.toList_ofList] at listed
    have digit := Nat.isDigit_of_mem_toDigits (by decide) (by decide) listed
    simp [Char.isAlphanum, digit]
  have solid : ∀ c ∈ 'h' :: (toString index).toList, c.isAlphanum = true :=
    List.forall_mem_cons.mpr ⟨rfl, digits⟩
  refine tells_of_word (fun c listed => ?_) ?_
  · simp [lexis, solid c (by simpa using listed)]
  · refine Bool.eq_false_iff.mpr fun contains => ?_
    have dot := solid '.' (by simpa [lexis] using contains)
    cases dot

/-- The packages of a union are imported. -/
structure ImportsJson (imports : List String) : Prop where
  json : "encoding/json" ∈ imports
  fmt : "fmt" ∈ imports

section Json

variable (json : ImportsJson imports)

include json

theorem ImportsJson.stems_marshal : ∀ name ∈ ["json.Marshal"], Stems outline imports name :=
  List.forall_mem_singleton.mpr (.selection json.json ⟨"Marshal", by decide +kernel⟩)

theorem ImportsJson.stems_unmarshal : ∀ name ∈ ["json.Unmarshal"], Stems outline imports name :=
  List.forall_mem_singleton.mpr (.selection json.json ⟨"Unmarshal", by decide +kernel⟩)

theorem ImportsJson.stems_errorf : ∀ name ∈ ["fmt.Errorf"], Stems outline imports name :=
  List.forall_mem_singleton.mpr (.selection json.fmt ⟨"Errorf", by decide +kernel⟩)

theorem ImportsJson.isCovered_marshalLines {name : String}
    (named : IsCovered outline imports name) {types : List String}
    (each : ∀ type ∈ types, IsCovered outline imports type) :
    ∀ line ∈ marshalLines name types, IsCovered outline imports line := by
  have value : ∀ word ∈ ["t.Value"], Stems outline imports word := stems_own (.head _)
  have typeList : IsCovered outline imports ("[" ++ String.intercalate " " types ++ "]") :=
    .stop (.start rfl quiet (tells_intercalate rfl quiet each)) rfl quiet
  have plain : IsCovered outline imports "" := tells_plain rfl
  have closing : IsCovered outline imports "\t\x7d" := tells_plain rfl
  have last : IsCovered outline imports "\x7d" := tells_plain rfl
  have return_nil : IsCovered outline imports "\t\treturn nil" := tells_plain rfl
  have attempt (item : String × Nat) (among : item ∈ types.zipIdx) :
      IsCovered outline imports ("\tvar " ++ ("h" ++ toString item.2) ++ " " ++ item.1) ∧
      IsCovered outline imports
        ("\tif err := json.Unmarshal(x, &" ++ ("h" ++ toString item.2) ++ "); err == nil \x7b") ∧
      IsCovered outline imports ("\t\tt.Value = " ++ ("h" ++ toString item.2)) := by
    have holder : IsCovered outline imports ("h" ++ toString item.2) := isCovered_holder item.2
    refine ⟨.fill (.start rfl quiet holder) rfl quiet ?_,
      .stop (.start rfl json.stems_unmarshal holder) rfl quiet, .start rfl value holder⟩
    exact each item.1 (List.fst_mem_of_mem_zipIdx among)
  have case (type : String) (among : type ∈ types) :
      IsCovered outline imports ("\tcase " ++ type ++ ":") :=
    .stop (.start rfl quiet (each type among)) rfl quiet
  rw [marshalLines]
  simp only [List.forall_mem_append, List.forall_mem_cons, List.forall_mem_flatMap,
    List.not_mem_nil, false_imp_iff, implies_true, and_true, and_assoc]
  refine ⟨plain, .stop (.start rfl quiet named) rfl quiet,
    tells_part rfl (stems_own (.tail _ (.head _))), ?_,
    tells_plain rfl, tells_plain rfl, closing,
    .stop (.start rfl json.stems_errorf typeList) rfl value, last, plain,
    .stop (.start rfl quiet named) rfl quiet, tells_plain rfl,
    tells_part rfl value, return_nil, closing, ?_,
    .stop (.start rfl json.stems_errorf typeList) rfl quiet, last⟩
  · exact fun type among => ⟨case type among, tells_part rfl json.stems_marshal⟩
  · intro item among
    obtain ⟨declares, tests, sets⟩ := attempt item among
    exact ⟨declares, tests, sets, return_nil, closing⟩

end Json

theorem exists_types_of_unionText {name : String} {variants : List Variant} {text : String}
    (rendered : (unionText config name variants).result = .ok text) :
    ∃ types, (variants.mapM fun variant => (typeText variant.type : Rendering String)).result =
        .ok types ∧
      text = Text.unlines (["// " ++ name ++ " is a union type for: " ++
          String.intercalate " | " types, "type " ++ name ++ " struct \x7b",
          "\tValue any `json:\"value\"`", "\x7d"] ++
        if config.generateJson then marshalLines name types else []) := by
  rw [unionText] at rendered
  by_cases asked : config.generateJson = true
  · rw [if_pos asked] at rendered
    obtain ⟨_, _, rendered⟩ := Rendering.result_bind_eq_ok_iff.mp rendered
    obtain ⟨types, found, rendered⟩ := Rendering.result_bind_eq_ok_iff.mp rendered
    exact ⟨types, found, (Except.ok.inj rendered).symm⟩
  · rw [if_neg asked] at rendered
    obtain ⟨types, found, rendered⟩ := Rendering.result_bind_eq_ok_iff.mp rendered
    exact ⟨types, found, (Except.ok.inj rendered).symm⟩

theorem isCovered_unionText {key name : String} {variants : List Variant}
    (listed : (key, .union name variants) ∈ outline.composites)
    (json : config.generateJson = true → ImportsJson imports) {text : String}
    (rendered : (unionText config name variants).result = .ok text) :
    IsCovered outline imports text := by
  have named : IsCovered outline imports name := (Lends.compositeName listed).isCovered
  obtain ⟨types, found, rfl⟩ := exists_types_of_unionText rendered
  have typed : ∀ type ∈ types, IsCovered outline imports type := by
    intro type among
    obtain ⟨variant, owned, spelled⟩ := Rendering.exists_of_mem_of_result_mapM found among
    exact (Lends.type (.composite listed (List.mem_map_of_mem owned)) spelled).isCovered
  refine tells_unlines (List.forall_mem_append.mpr ⟨?_, ?_⟩)
  · rw [List.forall_mem_cons, List.forall_mem_cons, List.forall_mem_cons, List.forall_mem_singleton]
    exact ⟨.fill (.start rfl quiet named) rfl quiet (tells_intercalate rfl quiet typed),
      .stop (.start rfl quiet named) rfl quiet, tells_plain rfl,
      tells_plain rfl⟩
  · split
    · exact (json ‹_›).isCovered_marshalLines named typed
    · exact List.forall_mem_nil _

/-! ## Words of methods -/

section Methods

variable (context : "context" ∈ imports) {method : Method} (listed : method ∈ outline.methods)

include context

theorem stems_context : ∀ name ∈ ["context.Context"], Stems outline imports name :=
  List.forall_mem_singleton.mpr (.selection context ⟨"Context", by decide +kernel⟩)

include listed

theorem isCovered_methodLines {lines : List String} (written : methodLines method = .ok lines) :
    ∀ line ∈ lines, IsCovered outline imports line := by
  rw [methodLines_eq] at written
  obtain ⟨arguments, given, written⟩ := except_bind_eq_ok_iff.mp written
  obtain ⟨returns, answered, written⟩ := except_bind_eq_ok_iff.mp written
  have coveredArguments : IsCovered outline imports arguments := by
    rw [argumentsText] at given
    cases params : method.params with
    | none =>
        rw [params] at given
        cases given
        exact tells_part rfl (stems_context context)
    | some descriptor =>
        rw [params] at given
        obtain ⟨type, spelled, rfl⟩ := except_map_eq_ok_iff.mp given
        exact .start rfl (stems_context context)
          (isCovered_pointer (Lends.type (.params listed params) spelled).isCovered)
  have coveredReturns : IsCovered outline imports returns := by
    rw [returnsText] at answered
    split at answered
    · cases answered
      exact tells_plain rfl
    · obtain ⟨type, spelled, rfl⟩ := except_map_eq_ok_iff.mp answered
      have typed : IsCovered outline imports type :=
        isCovered_typeTextOf (fun _ same => .result listed same) spelled
      exact .stop (.start rfl quiet (isCovered_pointer typed)) rfl quiet
  cases written
  refine List.forall_mem_append.mpr ⟨fun line among => ?_, List.forall_mem_singleton.mpr ?_⟩
  · exact (Lends.methodComment listed among).isCovered
  · exact .fill (.fill (.start rfl quiet (Lends.methodName listed).isCovered) rfl quiet
      coveredArguments) rfl quiet coveredReturns

end Methods

theorem isCovered_interfaceLines {name description : String}
    (named : IsCovered outline imports name) (described : IsCovered outline imports description)
    {methods : List (List String)}
    (each : ∀ lines ∈ methods, ∀ line ∈ lines, IsCovered outline imports line) :
    ∀ line ∈ interfaceLines name description methods, IsCovered outline imports line := by
  rw [interfaceLines]
  split
  · exact List.forall_mem_nil _
  · simp only [List.forall_mem_append, List.forall_mem_cons, List.forall_mem_flatten,
      List.not_mem_nil, false_imp_iff, implies_true, and_true]
    exact ⟨⟨⟨tells_plain rfl,
      .stop (.fill (.start rfl quiet named) rfl quiet described) rfl
        (stems_own (by simp [ownWords])),
      .stop (.start rfl quiet named) rfl quiet⟩, each⟩, tells_plain rfl⟩

theorem isCovered_methodConstant {method : Method} (listed : method ∈ outline.methods) :
    IsCovered outline imports (constantLine method) := by
  have split : "\tMethod" = "\t" ++ "Method" := by decide +kernel
  have constant : IsCovered outline imports ("\tMethod" ++ method.name) := by
    rw [split, String.append_assoc]
    exact .start rfl quiet (Lends.methodConstant listed).isCovered
  exact .fill constant rfl quiet (Lends.methodLiteral listed).isCovered

theorem isCovered_receivedLines {asked : Bool} {receives : Method → Bool}
    {lines : List (List String)}
    (found : (receivedLines asked receives outline.methods).result = .ok lines)
    (context : ∀ method ∈ outline.methods, asked = true → receives method = true →
      "context" ∈ imports) :
    ∀ own ∈ lines, ∀ line ∈ own, IsCovered outline imports line := by
  intro own among
  obtain ⟨method, owned, written⟩ := Rendering.exists_of_mem_of_result_mapM found among
  obtain ⟨asks, listed, received⟩ := mem_ite_filter_iff.mp owned
  exact isCovered_methodLines (context method listed asks received) listed written

theorem isCovered_methodsText {text : String}
    (rendered : (methodsText config outline.methods).result = .ok text)
    (context : ∀ method ∈ outline.methods, IsReceived config method → "context" ∈ imports) :
    IsCovered outline imports text := by
  have server : IsCovered outline imports "Server" := tells_plain rfl
  have client : IsCovered outline imports "Client" := tells_plain rfl
  obtain ⟨serverLines, clientLines, foundServer, foundClient, rfl⟩ := exists_interfaces rendered
  refine tells_unlines ?_
  simp only [List.forall_mem_append, List.forall_mem_cons, List.forall_mem_map,
    List.not_mem_nil, false_imp_iff, implies_true, and_true, and_assoc]
  refine ⟨tells_part rfl (stems_own (by simp [ownWords])), tells_plain rfl,
    fun method => isCovered_methodConstant, tells_plain rfl, ?_, ?_⟩
  · exact isCovered_interfaceLines server (tells_plain rfl) (isCovered_receivedLines foundServer
      fun method listed asks received => context method listed (.inl ⟨asks, received⟩))
  · exact isCovered_interfaceLines client (tells_plain rfl) (isCovered_receivedLines foundClient
      fun method listed asks received => context method listed (.inr ⟨asks, received⟩))

end ProtocolCodegen.Go
