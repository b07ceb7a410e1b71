import ProtocolCodegen.Outline.Analysis
import ProtocolCodegen.Proofs.Lowering.SinglePass
import ProtocolCodegen.Proofs.Schema.PostOrder

/-!
# Analysis in a single pass

The declarations of a protocol can be analyzed while their types are lowered: the fields of a record
are lowered as they are found, parents first, then the aliases and the methods, and the composites
are listed last.  This gives the outline of the protocol, and the steps of the analysis are what it
does to the ledger.  The depth that bounds the search for the fields of a record has no effect,
since no record is entered twice.
-/

namespace ProtocolCodegen.Analyzer

/-! ## The pass -/

/-- Lowers the type of a property for its field. -/
def fieldPass (analyzer : Analyzer) (declaredIn : String) (property : Property Node) :
    StateM Ledger Outline.Field := do
  let type ← analyzer.lowerer.pass property.type
  return {
    name := property.name
    type := some type
    optional := property.optional
    notes := property.notes
    declaredIn := declaredIn }

/-- Finds fields in the course of a run, together with the names of the records that were
entered. -/
abbrev FieldsPass := StateT (List String) (StateM Ledger) (List Outline.Field)

/-- Adds the fields of a parent, which `flatten` finds. -/
def inheritPass (analyzer : Analyzer) (flatten : Structure → FieldsPass) (child : String)
    (fields : List Outline.Field) : Node → FieldsPass
  | .reference _ name =>
      match analyzer.model.declaredStructure? name with
      | some parent => return addFields fields (← flatten parent)
      | none => do
          modifyThe Ledger (Ledger.log (.unknownParent child name))
          return fields
  | _ => return fields

/-- Adds the fields of properties as their types are lowered. -/
def ownPass (analyzer : Analyzer) (declaredIn : String) (fields : List Outline.Field)
    (own : List (Property Node)) : StateM Ledger (List Outline.Field) :=
  own.foldlM (fun fields property => addField fields <$> analyzer.fieldPass declaredIn property)
    fields

/-- Finds the fields of a record that was entered, those of its parents and mixins first. -/
def enteredPass (analyzer : Analyzer) (flatten : Structure → FieldsPass) (declared : Structure) :
    FieldsPass := do
  let inherited ← (declared.parents ++ declared.mixins).foldlM
    (analyzer.inheritPass flatten declared.name) []
  analyzer.ownPass declared.name inherited
    (declared.properties.filter fun property => analyzer.admits property.proposed)

/-- Finds the fields of a record, unless it was entered before. -/
def flattenPass (analyzer : Analyzer) : (depth : Nat) → (declared : Structure) → FieldsPass
  | 0, _ => return []
  | depth + 1, declared => do
      if declared.name ∈ (← get) then
        return []
      else
        modify (declared.name :: ·)
        analyzer.enteredPass (analyzer.flattenPass depth) declared

/-- Analyzes a record. -/
def classPass (analyzer : Analyzer) (declared : Structure) : StateM Ledger Outline.Class := do
  let (fields, _) ← (analyzer.flattenPass (analyzer.model.structures.length + 1) declared).run []
  return {
    name := analyzer.typeName declared.name
    originalName := declared.name
    fields := fields
    notes := declared.notes }

/-- Analyzes an alias. -/
def aliasPass (analyzer : Analyzer) (declared : TypeAlias) : StateM Ledger Outline.Alias := do
  let target ← analyzer.lowerer.passOf declared.type
  return {
    name := analyzer.typeName declared.name
    originalName := declared.name
    target := some target
    notes := declared.notes }

/-- Analyzes a request. -/
def requestPass (analyzer : Analyzer) (request : Request) : StateM Ledger Outline.Method := do
  let params ← request.params.mapM analyzer.lowerer.pass
  let result ← request.result.mapM analyzer.lowerer.pass
  return {
    name := Name.ofMethod request.method
    method := request.method
    direction := request.direction
    params := params
    result := result
    isNotification := false
    documentation := request.notes.documentation
    since := request.notes.since }

/-- Analyzes a notification. -/
def notificationPass (analyzer : Analyzer) (notification : Notification) :
    StateM Ledger Outline.Method := do
  let params ← notification.params.mapM analyzer.lowerer.pass
  return {
    name := Name.ofMethod notification.method
    method := notification.method
    direction := notification.direction
    params := params
    result := none
    isNotification := true
    documentation := notification.notes.documentation
    since := notification.notes.since }

/-- Analyzes the methods, if they are generated. -/
def methodsPass (analyzer : Analyzer) (includesMethods : Bool) :
    StateM Ledger (List Outline.Method) := do
  if includesMethods then
    let requests ← analyzer.requests.mapM analyzer.requestPass
    let notifications ← analyzer.notifications.mapM analyzer.notificationPass
    return Text.sortedBy (·.method) (requests ++ notifications)
  else
    return []

/-- Analyzes a protocol in a single pass. -/
def pass (analyzer : Analyzer) (includesMethods : Bool) : StateM Ledger Outline := do
  let classes ← analyzer.structures.mapM analyzer.classPass
  let aliases ← analyzer.aliases.mapM analyzer.aliasPass
  let methods ← analyzer.methodsPass includesMethods
  let outline : Outline := {
    version := analyzer.model.version
    classes := classes
    enums := analyzer.enumerations.map analyzer.enumOf
    aliases := aliases
    methods := methods
    composites := (← get).sortedComposites
    comment := [] }
  modify (Ledger.log (.analyzed outline.classes.length outline.enums.length
    outline.aliases.length outline.methods.length outline.composites.length))
  return outline

/-! ## What the pass does -/

variable {analyzer : Analyzer}

/-- What steps do to a ledger. -/
def runSteps (analyzer : Analyzer) (steps : List AnalysisStep) (ledger : Ledger) : Ledger :=
  steps.foldl (AnalysisStep.run analyzer.lowerer) ledger

theorem runSteps_append (first second : List AnalysisStep) (ledger : Ledger) :
    analyzer.runSteps (first ++ second) ledger =
      analyzer.runSteps second (analyzer.runSteps first ledger) :=
  List.foldl_append

theorem runSteps_flatMap {α : Type} (steps : α → List AnalysisStep) (items : List α)
    (ledger : Ledger) :
    analyzer.runSteps (items.flatMap steps) ledger =
      items.foldl (fun ledger item => analyzer.runSteps (steps item) ledger) ledger :=
  List.foldl_flatMap ..

/-- A pass comes to a value and does some steps to the ledger. -/
def Takes {α : Type} (analyzer : Analyzer) (pass : StateM Ledger α) (steps : List AnalysisStep)
    (value : α) : Prop :=
  ∀ ledger, pass.run ledger = (value, analyzer.runSteps steps ledger)

section Takes

variable {α β : Type}

theorem takes_pure (value : α) : analyzer.Takes (pure value) [] value := fun _ => rfl

theorem Takes.bind {first : StateM Ledger α} {next : α → StateM Ledger β} {value : α} {value' : β}
    {steps steps' : List AnalysisStep} (takes_first : analyzer.Takes first steps value)
    (takes_next : analyzer.Takes (next value) steps' value') :
    analyzer.Takes (first >>= next) (steps ++ steps') value' := by
  intro ledger
  rw [Ledger.run_bind, takes_first ledger, takes_next, runSteps_append]

theorem Takes.map {pass : StateM Ledger α} {value : α} {steps : List AnalysisStep}
    (takes : analyzer.Takes pass steps value) (change : α → β) :
    analyzer.Takes (change <$> pass) steps (change value) := by
  intro ledger
  rw [StateT.run_map, takes ledger]
  rfl

theorem takes_mapM {pass : α → StateM Ledger β} {steps : α → List AnalysisStep} {value : α → β}
    (each : ∀ item, analyzer.Takes (pass item) (steps item) (value item)) (items : List α) :
    analyzer.Takes (items.mapM pass) (items.flatMap steps) (items.map value) := by
  intro ledger
  rw [runSteps_flatMap]
  exact Ledger.run_mapM (fun item _ => each item) ledger

end Takes

theorem takes_passOf (analyzer : Analyzer) (node : Option Node) :
    analyzer.Takes (analyzer.lowerer.passOf node) [.lower node]
      (analyzer.lowerer.descriptorOf node) := by
  intro ledger
  rw [Lowerer.passOf_eq_lower]
  rfl

/-- A type that may be missing is lowered only if it is there. -/
theorem takes_present (analyzer : Analyzer) (node : Option Node) :
    analyzer.Takes (node.mapM analyzer.lowerer.pass) (lowerPresent node)
      (node.map analyzer.lowerer.descriptor) := by
  cases node with
  | none => exact takes_pure none
  | some node => exact (analyzer.takes_passOf (some node)).map some

/-! ### Records -/

theorem takes_fieldPass (analyzer : Analyzer) (declaredIn : String) (property : Property Node) :
    analyzer.Takes (analyzer.fieldPass declaredIn property) [.lower (some property.type)]
      (analyzer.field declaredIn property) :=
  (analyzer.takes_passOf (some property.type)).bind (takes_pure _)

theorem takes_ownPass (analyzer : Analyzer) (declaredIn : String) (fields : List Outline.Field)
    (own : List (Property Node)) :
    analyzer.Takes (analyzer.ownPass declaredIn fields own)
      (own.map fun property => .lower (some property.type))
      (addFields fields (own.map (analyzer.field declaredIn))) := by
  induction own generalizing fields with
  | nil => exact takes_pure fields
  | cons property rest induction =>
      rw [ownPass, List.foldlM_cons]
      have takes_first := (analyzer.takes_fieldPass declaredIn property).map (addField fields)
      exact takes_first.bind (induction _)

/-- A pass continues a flattening: from the fields that were found, the records that were entered
and the steps that were done so far it comes to those of another flattening. -/
def Continues (analyzer : Analyzer) (before after : Flattening) (pass : FieldsPass) : Prop :=
  ∀ ledger, (pass.run before.seen).run (analyzer.runSteps before.steps ledger) =
    ((after.fields, after.seen), analyzer.runSteps after.steps ledger)

theorem Continues.bind {before middle after : Flattening} {first : FieldsPass}
    {next : List Outline.Field → FieldsPass}
    (continues_first : analyzer.Continues before middle first)
    (continues_next : analyzer.Continues middle after (next middle.fields)) :
    analyzer.Continues before after (first >>= next) := by
  intro ledger
  rw [StateT.run_bind, Ledger.run_bind, continues_first ledger]
  exact continues_next ledger

theorem Takes.continues {pass : StateM Ledger (List Outline.Field)} {steps : List AnalysisStep}
    {fields : List Outline.Field} (takes : analyzer.Takes pass steps fields) (before : Flattening) :
    analyzer.Continues before ⟨fields, before.seen, before.steps ++ steps⟩ (liftM pass) := by
  intro ledger
  have run_lift (ledger : Ledger) : ((liftM pass : FieldsPass).run before.seen).run ledger =
      (((pass.run ledger).1, before.seen), (pass.run ledger).2) := rfl
  rw [run_lift, takes, runSteps_append]

section Entered

variable {flattenPass : Structure → FieldsPass} {flatten : Structure → List String → Flattening}
  (each : ∀ declared seen,
    analyzer.Continues ⟨[], seen, []⟩ (flatten declared seen) (flattenPass declared))

include each

theorem continues_inheritPass (child : String) (state : Flattening) (parent : Node) :
    analyzer.Continues state (analyzer.inherit flatten child state parent)
      (analyzer.inheritPass flattenPass child state.fields parent) := by
  intro ledger
  cases parent with
  | reference source name =>
      rw [inherit, inheritPass]
      cases analyzer.model.declaredStructure? name with
      | some declared =>
          have run_parent : ((flattenPass declared).run state.seen).run
                (analyzer.runSteps state.steps ledger) =
              (((flatten declared state.seen).fields, (flatten declared state.seen).seen),
                analyzer.runSteps (flatten declared state.seen).steps
                  (analyzer.runSteps state.steps ledger)) :=
            each declared state.seen (analyzer.runSteps state.steps ledger)
          simp only [runSteps_append]
          rw [StateT.run_bind, Ledger.run_bind, run_parent]
          rfl
      | none =>
          simp only [runSteps_append]
          rfl
  | _ => rfl

theorem continues_parents (child : String) (state : Flattening) (parents : List Node) :
    analyzer.Continues state (parents.foldl (analyzer.inherit flatten child) state)
      (parents.foldlM (analyzer.inheritPass flattenPass child) state.fields) := by
  induction parents generalizing state with
  | nil => exact fun ledger => rfl
  | cons parent rest induction =>
      rw [List.foldlM_cons]
      exact (continues_inheritPass each child state parent).bind (induction _)

/-- A record that was entered has the fields of those above it and then its own. -/
theorem continues_enteredPass (declared : Structure) (seen : List String) :
    let inherited := (declared.parents ++ declared.mixins).foldl
      (analyzer.inherit flatten declared.name) ⟨[], seen, []⟩
    let own := declared.properties.filter fun property => analyzer.admits property.proposed
    analyzer.Continues ⟨[], seen, []⟩
      { fields := addFields inherited.fields (own.map (analyzer.field declared.name))
        seen := inherited.seen
        steps := inherited.steps ++ own.map fun property => .lower (some property.type) }
      (analyzer.enteredPass flattenPass declared) := by
  intro inherited own
  have inherits := continues_parents each declared.name ⟨[], seen, []⟩
    (declared.parents ++ declared.mixins)
  have lowers := (analyzer.takes_ownPass declared.name inherited.fields own).continues inherited
  exact inherits.bind lowers

end Entered

/-- The fields of a record are found while their types are lowered. -/
theorem continues_flattenPass (analyzer : Analyzer) (depth : Nat) (declared : Structure)
    (seen : List String) :
    analyzer.Continues ⟨[], seen, []⟩ (analyzer.flatten depth declared seen)
      (analyzer.flattenPass depth declared) := by
  induction depth generalizing declared seen with
  | zero => exact fun ledger => rfl
  | succ depth induction =>
      intro ledger
      have run_get : ((get : StateT (List String) (StateM Ledger) (List String)).run seen).run
          (analyzer.runSteps [] ledger) = ((seen, seen), ledger) := rfl
      rw [flatten, flattenPass, StateT.run_bind, Ledger.run_bind, run_get]
      split
      · rfl
      · exact continues_enteredPass induction declared (declared.name :: seen) ledger

theorem takes_classPass (analyzer : Analyzer) (declared : Structure) :
    analyzer.Takes (analyzer.classPass declared) (analyzer.flattening declared).steps
      (analyzer.classOf declared) := by
  intro ledger
  have run_flatten :
      ((analyzer.flattenPass (analyzer.model.structures.length + 1) declared).run []).run ledger =
        (((analyzer.flattening declared).fields, (analyzer.flattening declared).seen),
          analyzer.runSteps (analyzer.flattening declared).steps ledger) :=
    analyzer.continues_flattenPass _ declared [] ledger
  rw [classPass, Ledger.run_bind, run_flatten]
  rfl

/-! ### Aliases and methods -/

theorem takes_aliasPass (analyzer : Analyzer) (declared : TypeAlias) :
    analyzer.Takes (analyzer.aliasPass declared) [.lower declared.type]
      (analyzer.aliasOf declared) :=
  (analyzer.takes_passOf declared.type).bind (takes_pure _)

theorem takes_requestPass (analyzer : Analyzer) (request : Request) :
    analyzer.Takes (analyzer.requestPass request)
      (lowerPresent request.params ++ lowerPresent request.result)
      (analyzer.requestOf request) := by
  rw [← List.append_nil (lowerPresent request.result)]
  exact (analyzer.takes_present request.params).bind
    ((analyzer.takes_present request.result).bind (takes_pure _))

theorem takes_notificationPass (analyzer : Analyzer) (notification : Notification) :
    analyzer.Takes (analyzer.notificationPass notification) (lowerPresent notification.params)
      (analyzer.notificationOf notification) := by
  rw [← List.append_nil (lowerPresent notification.params)]
  exact (analyzer.takes_present notification.params).bind (takes_pure _)

theorem takes_methodsPass (analyzer : Analyzer) (includesMethods : Bool) :
    analyzer.Takes (analyzer.methodsPass includesMethods)
      (if includesMethods then analyzer.methodSteps else [])
      (if includesMethods then analyzer.methods else []) := by
  cases includesMethods with
  | true =>
      simp only [methodSteps, ↓reduceIte]
      rw [← List.append_nil (analyzer.notifications.flatMap _)]
      exact (takes_mapM analyzer.takes_requestPass analyzer.requests).bind
        ((takes_mapM analyzer.takes_notificationPass analyzer.notifications).bind (takes_pure _))
  | false => exact takes_pure []

/-! ### Protocols -/

/-- The types of the records are lowered first, then those of the aliases, then those of the
methods. -/
theorem enrolled_eq_runSteps (analyzer : Analyzer) (includesMethods : Bool) (ledger : Ledger) :
    analyzer.enrolled includesMethods ledger =
      analyzer.runSteps (if includesMethods then analyzer.methodSteps else [])
        (analyzer.runSteps (analyzer.aliases.flatMap fun declared => [.lower declared.type])
          (analyzer.runSteps
            (analyzer.structures.flatMap fun declared => (analyzer.flattening declared).steps)
            ledger)) := by
  rw [enrolled, steps, declarationSteps, List.foldl_append, List.foldl_append, List.map_eq_flatMap]
  rfl

/-- To analyze a protocol in the course of a run is a single pass over it. -/
theorem pass_eq_analyze (analyzer : Analyzer) (includesMethods : Bool) :
    analyzer.pass includesMethods = analyzer.analyze includesMethods := by
  funext ledger
  have classes := takes_mapM analyzer.takes_classPass analyzer.structures
  have aliases := takes_mapM analyzer.takes_aliasPass analyzer.aliases
  have methods := analyzer.takes_methodsPass includesMethods
  change (analyzer.pass includesMethods).run ledger = _
  rw [pass, Ledger.run_bind, classes, Ledger.run_bind, aliases, Ledger.run_bind, methods,
    Ledger.run_bind, Ledger.run_get, analyze, enrolled_eq_runSteps]
  rfl

/-! ## How deep the pass may go -/

section Depth

variable {flatten flatten' : Structure → List String → Flattening}

theorem subset_seen_foldl_inherit (analyzer : Analyzer)
    (grows : ∀ declared seen, seen ⊆ (flatten declared seen).seen) (child : String)
    (parents : List Node) (state : Flattening) :
    state.seen ⊆ (parents.foldl (analyzer.inherit flatten child) state).seen := by
  induction parents generalizing state with
  | nil => exact List.Subset.refl _
  | cons parent rest induction =>
      have first : state.seen ⊆ (analyzer.inherit flatten child state parent).seen := by
        cases parent with
        | reference source name =>
            rw [inherit]
            split
            · exact grows _ _
            · exact List.Subset.refl _
        | _ => exact List.Subset.refl _
      exact List.Subset.trans first (induction _)

theorem subset_seen_flatten (analyzer : Analyzer) (depth : Nat) (declared : Structure)
    (seen : List String) : seen ⊆ (analyzer.flatten depth declared seen).seen := by
  induction depth generalizing declared seen with
  | zero => exact List.Subset.refl _
  | succ depth induction =>
      rw [flatten]
      split
      · exact List.Subset.refl _
      · have more := analyzer.subset_seen_foldl_inherit induction declared.name
          (declared.parents ++ declared.mixins) ⟨[], declared.name :: seen, []⟩
        exact fun name known => more (List.mem_cons_of_mem _ known)

/-- Two ways to find the fields of a parent need only agree where the names that were entered so far
are known. -/
theorem foldl_inherit_eq {known : List String}
    (grows : ∀ declared seen, seen ⊆ (flatten declared seen).seen)
    (same : ∀ declared ∈ analyzer.model.structures, ∀ seen, known ⊆ seen →
      flatten' declared seen = flatten declared seen)
    (child : String) (parents : List Node) {state : Flattening} (entered : known ⊆ state.seen) :
    parents.foldl (analyzer.inherit flatten' child) state =
      parents.foldl (analyzer.inherit flatten child) state := by
  induction parents generalizing state with
  | nil => rfl
  | cons parent rest induction =>
      have first : analyzer.inherit flatten' child state parent =
          analyzer.inherit flatten child state parent := by
        cases parent with
        | reference source name =>
            rw [inherit, inherit]
            cases found : analyzer.model.declaredStructure? name with
            | some declared =>
                have listed := (Model.declaredStructure?_eq_some_iff.mp found).2.mem
                simp only [same declared listed state.seen entered]
            | none => rfl
        | _ => rfl
      have further := analyzer.subset_seen_foldl_inherit grows child [parent] state
      rw [List.foldl_cons, List.foldl_cons, first]
      exact induction (List.Subset.trans entered further)

end Depth

/-- Flattening that may enter as many records within one another as there are names left goes as
deep as there is anything to find. -/
theorem flatten_eq_of_enough (analyzer : Analyzer) {depth depth' : Nat} {declared : Structure}
    {seen : List String} (listed : declared ∈ analyzer.model.structures)
    (enough : (remaining (analyzer.model.structures.map (·.name)) seen).length ≤ depth)
    (deeper : depth ≤ depth') :
    analyzer.flatten depth' declared seen = analyzer.flatten depth declared seen := by
  have named : declared.name ∈ analyzer.model.structures.map (·.name) :=
    List.mem_map_of_mem listed
  induction depth generalizing depth' declared seen with
  | zero =>
      have known := mem_of_length_remaining_le_zero named enough
      cases depth' with
      | zero => rfl
      | succ depth' => simp only [flatten, known, ↓reduceIte]
  | succ depth induction =>
      obtain ⟨depth', rfl⟩ : ∃ lower, depth' = lower + 1 := ⟨depth' - 1, by omega⟩
      rw [flatten, flatten]
      split
      · rfl
      · rename_i fresh
        -- Entering the record leaves fewer names, so its parents need not be searched as deep.
        have fewer := length_remaining_cons_lt named fresh
        have same (parent : Structure) (among : parent ∈ analyzer.model.structures)
            (seen' : List String) (more : declared.name :: seen ⊆ seen') :
            analyzer.flatten depth' parent seen' = analyzer.flatten depth parent seen' := by
          have smaller := length_remaining_le (analyzer.model.structures.map (·.name)) more
          exact induction among (by omega) (by omega) (List.mem_map_of_mem among)
        rw [foldl_inherit_eq (analyzer.subset_seen_flatten depth) same _ _ (List.Subset.refl _)]

/-- The pass over a record does not depend on how deep it may go, as long as it may enter every
declared record. -/
theorem takes_flattenPass (analyzer : Analyzer) {depth : Nat} {declared : Structure}
    (listed : declared ∈ analyzer.model.structures)
    (enough : analyzer.model.structures.length ≤ depth) :
    analyzer.Takes ((analyzer.flattenPass depth declared).run [])
      (analyzer.flattening declared).steps
      ((analyzer.flattening declared).fields, (analyzer.flattening declared).seen) := by
  have left : (remaining (analyzer.model.structures.map (·.name)) []).length ≤
      analyzer.model.structures.length := by
    simp [remaining]
  have flatten_eq : analyzer.flatten depth declared [] = analyzer.flattening declared := by
    rw [flattening, analyzer.flatten_eq_of_enough listed left enough,
      analyzer.flatten_eq_of_enough listed left (Nat.le_succ _)]
  rw [← flatten_eq]
  exact analyzer.continues_flattenPass depth declared []

end ProtocolCodegen.Analyzer
