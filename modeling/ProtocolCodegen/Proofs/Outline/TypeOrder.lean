import Mathlib
import ProtocolCodegen.Generation
import ProtocolCodegen.Proofs.Outline.Agreement
import ProtocolCodegen.Proofs.Schema.Reordering

/-!
# Outlines of reordered protocols

The order in which a document declares its types has no effect on anything that is generated, as
long as no two types of one kind have the same name.
-/

namespace ProtocolCodegen

/-! ## Types in another order -/

namespace Model.ReordersTypes

variable {model model' : Model} (reorders : model.ReordersTypes model')
  (once : model.NamesTypesOnce)

include reorders once

theorem alike_ofModel (profile : Profile) (includesProposed : Bool)
    (selection : Option (List String)) :
    (Analyzer.ofModel model profile includesProposed selection).Alike
      (Analyzer.ofModel model' profile includesProposed selection) where
  lowerer := ⟨rfl, rfl, reorders.get?_proposedFlags_eq once⟩
  selection := rfl
  version := reorders.version
  declaredStructure? := reorders.declaredStructure?_eq once
  sortedStructures := Text.sortedBy_eq_of_perm reorders.structures once.structures
  sortedEnumerations := Text.sortedBy_eq_of_perm reorders.enumerations once.enumerations
  sortedAliases := Text.sortedBy_eq_of_perm reorders.aliases once.aliases

theorem selection_eq (config : Config) : config.selection model' = config.selection model := by
  simp only [Config.selection, reorders.resolve_eq once, reorders.undeclared_eq once]

theorem outline_eq (config : Config) (language : Language) (profile : Profile) :
    config.outline language profile model' = config.outline language profile model := by
  have analyze_eq (selection : Option (List String)) (ledger : Ledger) :
      (Analyzer.ofModel model' profile config.includeProposed selection).analyze
          language.rendersMethods ledger =
        (Analyzer.ofModel model profile config.includeProposed selection).analyze
          language.rendersMethods ledger :=
    (reorders.alike_ofModel once profile config.includeProposed selection).analyze_eq
      reorders.requests reorders.notifications language.rendersMethods ledger
  simp only [Config.outline, reorders.selection_eq once, analyze_eq]

theorem generate_eq (config : Config) (language : Language) (languageName : String)
    (command : Except FileError String) :
    generate config language languageName model' command =
      generate config language languageName model command := by
  simp only [generate, reorders.outline_eq once, reorders.version]

end Model.ReordersTypes

/-- The order of type declarations does not matter.  If no two types of one kind have the same name,
the names to generate, the outline and ledger, and all that a generation tells and writes, are the
same for a document that lists the types in another order. -/
theorem generate_reordersTypes {model model' : Model} (config : Config) (language : Language)
    (languageName : String) (command : Except FileError String)
    (reorders : model.ReordersTypes model') (once : model.NamesTypesOnce) :
    config.selection model' = config.selection model ∧
      (∀ profile, config.outline language profile model' =
        config.outline language profile model) ∧
      generate config language languageName model' command =
        generate config language languageName model command := by
  refine ⟨reorders.selection_eq once config, reorders.outline_eq once config language, ?_⟩
  exact reorders.generate_eq once config language languageName command

/-- Records and aliases that stand in another order.  An alias and a record share a name, and it is
the alias that makes this name proposed. -/
theorem generate_reordersTypes_shared_name :
    let edit : Structure :=
      { (default : Structure) with
        name := "Edit"
        properties := [{ (default : Property Node) with
          name := "range"
          type := .reference (.root "type") "Range" }] }
    let range : Structure := { (default : Structure) with name := "Range" }
    let draft : TypeAlias := { (default : TypeAlias) with name := "Range", proposed := true }
    let uri : TypeAlias := { (default : TypeAlias) with name := "Uri" }
    let model : Model :=
      { (default : Model) with structures := [edit, range], aliases := [draft, uri] }
    let model' : Model := { model with structures := [range, edit], aliases := [uri, draft] }
    let config : Config := { Config.defaults with types := ["Edit"] }
    let generation (model : Model) : Generation :=
      generate config .go "go" model (.ok "metamodel_to_code")
    model.ReordersTypes model' ∧ model.NamesTypesOnce ∧
      (config.selection model').1 = some ["Edit"] ∧
      config.selection model' = config.selection model ∧
      generation model' = generation model := by
  intro edit range draft uri model model' config generation
  have reorders : model.ReordersTypes model' :=
    ⟨rfl, rfl, rfl, .swap edit range [], .refl [], .swap draft uri []⟩
  have once : model.NamesTypesOnce := ⟨by decide, by decide, by decide⟩
  obtain ⟨selected, _, generated⟩ :=
    generate_reordersTypes config .go "go" (.ok "metamodel_to_code") reorders once
  exact ⟨reorders, once, by cbv, selected, generated⟩

end ProtocolCodegen
