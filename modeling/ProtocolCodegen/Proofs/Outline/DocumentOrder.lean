import ProtocolCodegen.Proofs.Outline.MethodOrder
import ProtocolCodegen.Proofs.Outline.TypeOrder
import ProtocolCodegen.Proofs.Outline.Unplaced
import ProtocolCodegen.Proofs.Schema.Relocation

/-!
# Documents in another order

In a document that lists its types or its methods in another order they stand in other places.
Since nothing looks at places once a protocol is read, what holds of reordered protocols holds of
reordered documents.
-/

namespace ProtocolCodegen

/-! ## Reordered sections -/

/-- The sections of a document that declare types. -/
def typeSections : List String :=
  ["structures", "enumerations", "typeAliases"]

/-- The sections of a document that declare methods. -/
def methodSections : List String :=
  ["requests", "notifications"]

namespace Model

variable {model model' : Model}

theorem Reorders.reordersTypes (reorders : model.Reorders typeSections model') :
    model.ReordersTypes model' where
  version := reorders.version
  requests := reorders.requests.same (by decide)
  notifications := reorders.notifications.same (by decide)
  structures := reorders.structures.perm
  enumerations := reorders.enumerations.perm
  aliases := reorders.aliases.perm

theorem Reorders.reordersMethods (reorders : model.Reorders methodSections model') :
    model.ReordersMethods model' where
  version := reorders.version
  structures := reorders.structures.same (by decide)
  enumerations := reorders.enumerations.same (by decide)
  aliases := reorders.aliases.same (by decide)
  requests := reorders.requests.perm
  notifications := reorders.notifications.perm

theorem NamesTypesOnce.unplaced (once : model.NamesTypesOnce) : model.unplaced.NamesTypesOnce where
  structures := by
    rw [Model.unplaced, List.map_map]
    exact once.structures
  enumerations := by
    rw [Model.unplaced, List.map_map]
    exact once.enumerations
  aliases := by
    rw [Model.unplaced, List.map_map]
    exact once.aliases

theorem map_name_methods_unplaced :
    model.unplaced.methods.map (·.name) = model.methods.map (·.name) := by
  simp only [methods, Model.unplaced, List.map_append, List.map_map]
  rfl

end Model

namespace Analyzer

variable (analyzer : Analyzer) (includesMethods : Bool)

theorem lower_mem_steps_unplaced_iff {node' : Node} :
    AnalysisStep.lower (some node') ∈ analyzer.unplaced.steps includesMethods ↔
      ∃ node, AnalysisStep.lower (some node) ∈ analyzer.steps includesMethods ∧
        node.unplaced = node' := by
  rw [steps_unplaced, List.mem_map]
  constructor
  · rintro ⟨step, listed, same⟩
    rcases step with (_ | node) | _
    · cases same
    · exact ⟨node, listed, Option.some.inj (AnalysisStep.lower.inj same)⟩
    · cases same
  · rintro ⟨node, listed, rfl⟩
    exact ⟨.lower (some node), listed, rfl⟩

theorem gives_unplaced :
    analyzer.unplaced.Gives includesMethods = analyzer.Gives includesMethods := by
  funext name composite
  apply propext
  simp only [Gives, GivesInSteps, lower_mem_steps_unplaced_iff, exists_exists_and_eq_and]
  exact exists_congr fun node => and_congr_right fun _ =>
    analyzer.lowerer.givesWithin_unplaced_iff

theorem sparesKeys_unplaced (spares : analyzer.SparesKeys includesMethods) :
    analyzer.unplaced.SparesKeys includesMethods := by
  intro node' step
  obtain ⟨node, listed, rfl⟩ := (analyzer.lower_mem_steps_unplaced_iff includesMethods).mp step
  exact analyzer.lowerer.sparesKeys_unplaced (spares node listed)

end Analyzer

/-! ## Reordered documents -/

namespace ReordersSections

variable {fields fields' : Dictionary String Json} {model : Model}

/-- The order in which a document declares its types does not matter.  If no two types of one kind
have the same name, a document that declares them in another order is read as well, and the names to
generate, the outline and ledger, and all that a generation tells and writes are the same. -/
theorem generateFrom_eq (reorders : ReordersSections typeSections fields fields')
    (found : Model.read (.obj fields) = .ok model) (once : model.NamesTypesOnce) (config : Config)
    (language : Language) (languageName : String) (command : Except FileError String) :
    ∃ model', Model.read (.obj fields') = .ok model' ∧
      config.selection model' = config.selection model ∧
      (∀ profile, config.outline language profile model' =
        config.outline language profile model) ∧
      generateFrom config language languageName (Model.read (.obj fields')) command =
        generateFrom config language languageName (Model.read (.obj fields)) command := by
  obtain ⟨model', found', reordered⟩ := reorders.exists_read (by decide) found
  have types : model.unplaced.ReordersTypes model'.unplaced := reordered.reordersTypes
  have selection := types.selection_eq once.unplaced config
  have outline := types.outline_eq once.unplaced config language
  have generated := types.generate_eq once.unplaced config language languageName command
  simp only [Config.selection_unplaced] at selection
  simp only [Config.outline_unplaced] at outline
  simp only [generate_unplaced] at generated
  refine ⟨model', found', selection, outline, ?_⟩
  rw [found, found']
  exact generated

/-- The order in which a document declares its methods only shows in definitions of composites, and
only if a composite name is given with two definitions, or if composites are within the key of a map
that gives way to a string. -/
theorem analyze_eq (reorders : ReordersSections methodSections fields fields')
    (found : Model.read (.obj fields) = .ok model) (once : (model.methods.map (·.name)).Nodup)
    (profile : Profile) (includesProposed includesMethods : Bool)
    (selection : Option (List String)) (events events' : List Event) :
    ∃ model', Model.read (.obj fields') = .ok model' ∧
      let analyzer := Analyzer.ofModel model profile includesProposed selection
      let analyzer' := Analyzer.ofModel model' profile includesProposed selection
      let outline := (analyzer.analyze includesMethods ⟨[], events⟩).1
      let outline' := (analyzer'.analyze includesMethods ⟨[], events'⟩).1
      outline' = { outline with composites := outline'.composites } ∧
        (Ledger.Unambiguous (analyzer.Gives includesMethods) →
          (∀ name, outline.Reaches name → ∀ composite,
            (name, composite) ∈ outline'.composites ↔ (name, composite) ∈ outline.composites) ∧
          (analyzer.SparesKeys includesMethods → outline' = outline)) := by
  obtain ⟨model', found', reordered⟩ := reorders.exists_read (by decide) found
  refine ⟨model', found', ?_⟩
  have methods : model.unplaced.ReordersMethods model'.unplaced := reordered.reordersMethods
  have once' : (model.unplaced.methods.map (·.name)).Nodup := by
    rwa [Model.map_name_methods_unplaced]
  intro analyzer analyzer' outline outline'
  -- Both outlines are those of the protocols without places, one of which reorders the other.
  have others := methods.outline_eq_with_composites profile includesProposed selection once'
    includesMethods events events'
  simp only [Analyzer.ofModel_unplaced, Analyzer.analyze_unplaced] at others
  refine ⟨others, fun unambiguous => ?_⟩
  have unambiguous' : Ledger.Unambiguous
      ((Analyzer.ofModel model.unplaced profile includesProposed selection).Gives
        includesMethods) := by
    rw [Analyzer.ofModel_unplaced, Analyzer.gives_unplaced]
    exact unambiguous
  constructor
  · intro name reaches composite
    have reaches' : ((Analyzer.ofModel model.unplaced profile includesProposed selection).analyze
        includesMethods ⟨[], events⟩).1.Reaches name := by
      rw [Analyzer.ofModel_unplaced, Analyzer.analyze_unplaced]
      exact reaches
    have listed := methods.mem_composites_iff profile includesProposed selection includesMethods
      events events' unambiguous' reaches' composite
    simp only [Analyzer.ofModel_unplaced, Analyzer.analyze_unplaced] at listed
    exact listed
  · intro spares
    have spares' : (Analyzer.ofModel model.unplaced profile includesProposed selection).SparesKeys
        includesMethods := by
      rw [Analyzer.ofModel_unplaced]
      exact analyzer.sparesKeys_unplaced includesMethods spares
    have composites := methods.composites_eq profile includesProposed selection includesMethods
      events events' unambiguous' spares'
    simp only [Analyzer.ofModel_unplaced, Analyzer.analyze_unplaced] at composites
    have composites : outline'.composites = outline.composites := composites
    exact others.trans (by rw [composites])

end ReordersSections
end ProtocolCodegen
