import ProtocolCodegen.Proofs.Outline.BuiltTypes
import ProtocolCodegen.Proofs.Target.Go.Selections
import ProtocolCodegen.Proofs.Target.Sections
import ProtocolCodegen.Proofs.Target.Sessions
import ProtocolCodegen.Proofs.Text.Order

/-!
# Go: imports

A Go file has to import exactly the packages of which it selects declarations.  No selection is
without an import, and every imported package is selected from, whatever was generated before.
-/

namespace ProtocolCodegen.Go

open Outline Text.Lexis

variable {config : Config} {outline : Outline} {imports : List String}

/-! ## Unions -/

theorem imports_unionText (name : String) (variants : List Variant) :
    (unionText config name variants).imports =
      if config.generateJson then unionImports else [] := by
  have types : (variants.mapM fun variant => (typeText variant.type : Rendering String)).imports =
      [] := Rendering.imports_mapM_eq_nil fun _ => rfl
  rw [unionText]
  split
  · exact congrArg (unionImports ++ ·)
      (Rendering.imports_bind_eq_nil types fun _ => rfl)
  · exact Rendering.imports_bind_eq_nil types fun _ => rfl

section Marshalled

variable {name : String} {variants : List Variant} {text : String}
  (asked : config.generateJson = true)
  (rendered : (unionText config name variants).result = .ok text)

include asked rendered

theorem errorf_mem_words_unionText : "fmt.Errorf" ∈ lexis.words text := by
  obtain ⟨types, _, rfl⟩ := exists_types_of_unionText rendered
  have line : "\treturn fmt.Errorf(\"unmarshal failed to match one of " ++
      ("[" ++ String.intercalate " " types ++ "]") ++ "\")" ∈ marshalLines name types := by
    simp [marshalLines]
  refine mem_words_unlines (List.mem_append_right _ (by rwa [if_pos asked])) ?_
  rw [String.append_assoc]
  have own : "fmt.Errorf" ∈ ["fmt.Errorf"] := List.mem_singleton_self _
  exact (mem_words_start_iff rfl).mpr (.inl own)

theorem marshal_mem_words_unionText (several : variants ≠ []) :
    "json.Marshal" ∈ lexis.words text := by
  obtain ⟨types, found, rfl⟩ := exists_types_of_unionText rendered
  have length := (Rendering.result_mapM_eq_ok_iff.mp found).length_eq
  have read : lexis.words "\t\treturn json.Marshal(x)" = ["json.Marshal"] :=
    words_part rfl
  have own : "json.Marshal" ∈ lexis.words "\t\treturn json.Marshal(x)" := by simp [read]
  have line : "\t\treturn json.Marshal(x)" ∈ marshalLines name types := by
    cases types with
    | nil => exact absurd (List.length_eq_zero_iff.mp length) several
    | cons type others => simp [marshalLines]
  exact mem_words_unlines (List.mem_append_right _ (by rwa [if_pos asked])) own

end Marshalled

/-! ## Methods -/

theorem exists_context_of_methodLines {method : Method} {lines : List String}
    (written : methodLines method = .ok lines) :
    ∃ line ∈ lines, "context.Context" ∈ lexis.words line := by
  have own : "context.Context" ∈ ["context.Context"] := List.mem_singleton_self _
  rw [methodLines_eq] at written
  obtain ⟨arguments, given, written⟩ := except_bind_eq_ok_iff.mp written
  obtain ⟨returns, _, written⟩ := except_bind_eq_ok_iff.mp written
  have mentions : "context.Context" ∈ lexis.words arguments := by
    rw [argumentsText] at given
    cases params : method.params with
    | none =>
        rw [params] at given
        cases given
        have read : lexis.words "context.Context" = ["context.Context"] :=
          words_part rfl
        rwa [read]
    | some descriptor =>
        rw [params] at given
        obtain ⟨type, _, rfl⟩ := except_map_eq_ok_iff.mp given
        exact (mem_words_start_iff rfl).mpr (.inl own)
  cases written
  refine ⟨_, List.mem_append_right _ (List.mem_singleton_self _), ?_⟩
  exact (mem_words_fill_iff rfl).mpr
    (.inl ((mem_words_fill_iff rfl).mpr (.inr (.inr mentions))))

theorem exists_context_of_receivedLines {asked : Bool} {receives : Method → Bool}
    {methods : List Method} {method : Method} (asks : asked = true) (listed : method ∈ methods)
    (received : receives method = true) {lines : List (List String)}
    (found : (receivedLines asked receives methods).result = .ok lines) :
    ∃ own ∈ lines, ∃ line ∈ own, "context.Context" ∈ lexis.words line := by
  obtain ⟨own, among, written⟩ := Rendering.exists_mem_of_result_mapM found
    (mem_ite_filter_iff.mpr ⟨asks, listed, received⟩)
  exact ⟨own, among, exists_context_of_methodLines written⟩

theorem mem_interfaceLines {name description line : String} {methods : List (List String)}
    {lines : List String} (among : lines ∈ methods) (stands : line ∈ lines) :
    line ∈ interfaceLines name description methods := by
  rw [interfaceLines, if_neg (by simp [List.ne_nil_of_mem among])]
  simp only [List.mem_append, List.mem_flatten]
  exact .inl (.inr ⟨lines, among, stands⟩)

/-- An interface with a method selects from `context`. -/
theorem context_mem_words_methodsText {method : Method} {methods : List Method} {text : String}
    (listed : method ∈ methods) (received : IsReceived config method)
    (rendered : (methodsText config methods).result = .ok text) :
    "context.Context" ∈ lexis.words text := by
  obtain ⟨server, client, foundServer, foundClient, rfl⟩ := exists_interfaces rendered
  rcases received with ⟨asks, received⟩ | ⟨asks, received⟩
  · obtain ⟨own, among, line, stands, mentions⟩ :=
      exists_context_of_receivedLines asks listed received foundServer
    refine mem_words_unlines ?_ mentions
    simp [mem_interfaceLines among stands]
  · obtain ⟨own, among, line, stands, mentions⟩ :=
      exists_context_of_receivedLines asks listed received foundClient
    refine mem_words_unlines ?_ mentions
    simp [mem_interfaceLines among stands]

theorem receivedLines_ne_nil_iff {asked : Bool} {receives : Method → Bool}
    {methods : List Method} {lines : List (List String)}
    (found : (receivedLines asked receives methods).result = .ok lines) :
    lines ≠ [] ↔ ∃ method ∈ methods, asked = true ∧ receives method = true := by
  have length := (Rendering.result_mapM_eq_ok_iff.mp found).length_eq
  rw [← List.length_pos_iff, ← length, List.length_pos_iff_exists_mem]
  simp only [mem_ite_filter_iff]
  tauto

theorem mem_imports_methodsText_iff {methods : List Method} {text path : String}
    (rendered : (methodsText config methods).result = .ok text) :
    path ∈ (methodsText config methods).imports ↔
      path = "context" ∧ ∃ method ∈ methods, IsReceived config method := by
  have none (asked : Bool) (receives : Method → Bool) :
      (receivedLines asked receives methods).imports = [] :=
    Rendering.imports_mapM_eq_nil fun _ => rfl
  obtain ⟨server, client, foundServer, foundClient, _⟩ := exists_interfaces rendered
  have received : (∃ method ∈ methods, IsReceived config method) ↔ server ≠ [] ∨ client ≠ [] := by
    rw [receivedLines_ne_nil_iff foundServer, receivedLines_ne_nil_iff foundClient]
    simp only [IsReceived, and_or_left, exists_or]
  rw [methodsText_eq, Rendering.imports_bind_eq foundServer, none,
    Rendering.imports_bind_eq foundClient, none, received]
  cases server <;> cases client <;> simp [Rendering.require, Bind.bind, Pure.pure]

/-! ## Declarations -/

theorem imports_structText (declared : Outline.Class) : (structText declared).imports = [] :=
  Rendering.imports_bind_eq_nil (Rendering.imports_mapM_eq_nil fun _ => rfl) fun _ => rfl

theorem imports_aliasText (declared : Alias) : (aliasText declared).imports = [] :=
  Rendering.imports_bind_eq_nil rfl fun _ => rfl

theorem imports_wrapperText (name field : String) (wrapped : Descriptor) :
    (wrapperText name field wrapped).imports = [] :=
  Rendering.imports_bind_eq_nil rfl fun _ => rfl

section Rendered

variable {texts : List String} (rendered : (declarations config outline).result = .ok texts)

include rendered

/-- The declarations ask for the packages that they use. -/
theorem mem_imports_declarations_iff {path : String} :
    path ∈ (declarations config outline).imports ↔ Uses config outline path := by
  rw [declarations_eq] at rendered ⊢
  rw [Renderers.mem_imports_iff_needs rendered]
  have ofMethods (several : outline.methods ≠ []) :
      path ∈ (methodsText config outline.methods).imports ↔
        path = "context" ∧ ∃ method ∈ outline.methods, IsReceived config method := by
    obtain ⟨text, written⟩ := Renderers.succeeds_of_methods rendered several
    exact mem_imports_methodsText_iff written
  constructor
  · intro needs
    cases needs with
    | record listed asks => exact absurd asks (by simp [renderers, imports_structText])
    | enumeration listed asks => cases asks
    | renamed listed asks => exact absurd asks (by simp [renderers, imports_aliasText])
    | @composite entry listed asks =>
        obtain ⟨key, composite⟩ := entry
        cases composite with
        | union name variants =>
            change path ∈ (unionText config name variants).imports at asks
            rw [imports_unionText, List.mem_ite_nil_right] at asks
            exact .union asks.1 listed asks.2
        | wrapper name field wrapped =>
            change path ∈ (wrapperText name field wrapped).imports at asks
            rw [imports_wrapperText] at asks
            cases asks
    | methods several asks =>
        obtain ⟨rfl, method, listed, received⟩ := (ofMethods several).mp asks
        exact .interface listed received
    | required asks => cases asks
  · intro uses
    cases uses with
    | @union key name path variants asked listed among =>
        refine .composite listed ?_
        change path ∈ (unionText config name variants).imports
        rwa [imports_unionText, if_pos asked]
    | interface listed received =>
        have several := List.ne_nil_of_mem listed
        exact .methods several ((ofMethods several).mpr ⟨rfl, _, listed, received⟩)

/-- All words with dots of the declarations are accounted for. -/
theorem isCovered_declarations (uses : ∀ path, Uses config outline path → path ∈ imports) :
    ∀ text ∈ texts, IsCovered outline imports text := by
  rw [declarations_eq] at rendered
  intro text among
  cases (Renderers.mem_iff_writes rendered).mp among with
  | record listed written => exact isCovered_structText listed written
  | enumeration listed written => exact isCovered_enumText listed written
  | renamed listed written => exact isCovered_aliasText listed written
  | @composite entry listed written =>
      obtain ⟨key, composite⟩ := entry
      cases composite with
      | union name variants =>
          refine isCovered_unionText listed (fun asked => ⟨?_, ?_⟩) written
          · exact uses _ (.union asked listed List.mem_cons_self)
          · exact uses _ (.union asked listed (List.mem_cons_of_mem _ List.mem_cons_self))
      | wrapper name field wrapped => exact isCovered_wrapperText listed written
  | methods several written =>
      exact isCovered_methodsText written fun _ listed received =>
        uses "context" (.interface listed received)

/-- Every package that the declarations use is selected from, but for `encoding/json` if all unions
are without variants. -/
theorem exists_selection {path : String} (uses : Uses config outline path) :
    (∃ text ∈ texts, ∃ word ∈ lexis.words text, Selects path word) ∨
      (path = "encoding/json" ∧ (∃ key name, (key, .union name []) ∈ outline.composites) ∧
        ∀ key name variants, (key, .union name variants) ∈ outline.composites → variants = []) := by
  rw [declarations_eq] at rendered
  cases uses with
  | @union key name path variants asked listed among =>
      have written {key name : String} {variants : List Variant}
          (listed : (key, .union name variants) ∈ outline.composites) :
          ∃ text ∈ texts, (unionText config name variants).result = .ok text := by
        obtain ⟨text, written⟩ := Renderers.succeeds_of_composite rendered listed
        exact ⟨text, (Renderers.mem_iff_writes rendered).mpr (.composite listed written), written⟩
      simp only [List.mem_cons, List.not_mem_nil, or_false] at among
      rcases among with rfl | rfl
      · by_cases several : ∃ key name variants,
            (key, .union name variants) ∈ outline.composites ∧ variants ≠ []
        · obtain ⟨key, name, variants, listed, several⟩ := several
          obtain ⟨text, stands, written⟩ := written listed
          refine .inl ⟨text, stands, "json.Marshal", ?_, "Marshal", by decide +kernel⟩
          exact marshal_mem_words_unionText asked written several
        · simp only [not_exists, not_and, not_not] at several
          obtain rfl := several key name variants listed
          exact .inr ⟨rfl, ⟨key, name, listed⟩, several⟩
      · obtain ⟨text, stands, written⟩ := written listed
        refine .inl ⟨text, stands, "fmt.Errorf", ?_, "Errorf", by decide +kernel⟩
        exact errorf_mem_words_unionText asked written
  | interface listed received =>
      have several := List.ne_nil_of_mem listed
      obtain ⟨text, written⟩ := Renderers.succeeds_of_methods rendered several
      have stands := (Renderers.mem_iff_writes rendered).mpr (.methods several written)
      refine .inl ⟨text, stands, "context.Context", ?_, "Context", by decide +kernel⟩
      exact context_mem_words_methodsText listed received written

end Rendered

/-- The Go file of an outline is written exactly if all types that its declarations spell have a Go
text, as in every outline of a protocol, and it fails as its declarations do.  It imports exactly
the packages that its declarations use, also behind other outlines, whatever they needed.  All words
with dots of the declarations are accounted for, so that no import is missing, and every imported
package is selected from, so that none is superfluous; only unions without variants, which no
protocol has, ask for `encoding/json` and leave it unused. -/
theorem imports_exact (config : Config) (session : Session) (outlines : List Outline) :
    List.Forall₂ (fun outline result =>
      ((∃ file, result = .ok file) ↔
        ∀ type, Spells config outline type → ∃ text, typeText type = .ok text) ∧
      (outline.IsAnalyzed → ∃ file, result = .ok file) ∧
      ∃ imports,
        result = (declarations config outline).result.map
          (Layout.file (fileStart config outline.comment imports)) ∧
        ∀ texts, (declarations config outline).result = .ok texts →
          imports.Nodup ∧
          (∀ path, path ∈ imports ↔ Uses config outline path) ∧
          (∀ text ∈ texts, ∀ word ∈ lexis.words text, Stems outline imports word) ∧
          ∀ path ∈ imports, (∃ text ∈ texts, ∃ word ∈ lexis.words text, Selects path word) ∨
            (path = "encoding/json" ∧
              (∀ key name variants,
                (key, .union name variants) ∈ outline.composites → variants = []) ∧
              ¬ outline.IsAnalyzed))
      outlines ((Session.renderAll config .go outlines).run session).1 := by
  rw [Session.renderAll_eq, List.forall₂_map_right_iff, List.forall₂_same]
  intro outline _
  refine ⟨succeeds_fileText_iff.trans succeeds_declarations_iff, fun analyzed => ?_,
    _, rfl, fun texts rendered => ?_⟩
  · exact succeeds_fileText_iff.mpr (succeeds_declarations analyzed config)
  have uses {path : String} : path ∈ Text.sortedSet (declarations config outline).imports ↔
      Uses config outline path :=
    Text.mem_sortedSet.trans (mem_imports_declarations_iff rendered)
  refine ⟨?_, fun path => uses, ?_, fun path imported => ?_⟩
  · exact (Text.pairwise_sortedSet _).imp fun below => below.ne
  · exact isCovered_declarations rendered fun path => uses.mpr
  · rcases exists_selection rendered (uses.mp imported) with selected | ⟨json, listed, empty⟩
    · exact .inl selected
    · obtain ⟨key, name, listed⟩ := listed
      exact .inr ⟨json, empty, fun analyzed => analyzed.variants_ne_nil listed rfl⟩

end ProtocolCodegen.Go
