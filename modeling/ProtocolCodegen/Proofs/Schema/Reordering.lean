import ProtocolCodegen.Proofs.Schema.Closures

/-!
# Protocols in another order

A document can list the same declarations in another order.  Where the names of one kind are
distinct, each name then stands for the same declaration, is proposed or not as before, and leads to
the same names in the same order, so that selections are closed alike.
-/

namespace ProtocolCodegen

namespace Dictionary

variable {α : Type}

/-- Of the pairs that are put one after the other the last one of a key counts. -/
theorem get?_putAll (entries : List (String × α)) (dictionary : Dictionary String α)
    (key : String) :
    (dictionary.putAll entries).get? key =
      ((entries.reverse.find? (·.1 == key)).map (·.2)).or (dictionary.get? key) := by
  induction entries generalizing dictionary with
  | nil => rfl
  | cons entry rest induction =>
      have later : dictionary.putAll (entry :: rest) =
          (dictionary.put entry.1 entry.2).putAll rest := rfl
      rw [later, induction, get?_put, List.reverse_cons, List.find?_append]
      cases rest.reverse.find? (·.1 == key) with
      | some last => rfl
      | none =>
          by_cases same : entry.1 = key
          · simp [same]
          · simp [same]

end Dictionary

/-- Where names are distinct, every name finds the same item in whatever order they stand. -/
theorem find?_reverse_eq_of_perm {α : Type} {name : α → String} {items items' : List α}
    (reordered : items'.Perm items) (distinct : (items.map name).Nodup) (key : String) :
    items'.reverse.find? (name · == key) = items.reverse.find? (name · == key) := by
  have distinct' : (items'.map name).Nodup := (reordered.map name).nodup_iff.mpr distinct
  ext item
  rw [find?_reverse_eq_some_iff, find?_reverse_eq_some_iff]
  constructor
  · rintro ⟨named, counts⟩
    exact ⟨named, isLastNamed_of_nodup distinct (reordered.mem_iff.mp counts.mem)⟩
  · rintro ⟨named, counts⟩
    exact ⟨named, isLastNamed_of_nodup distinct' (reordered.mem_iff.mpr counts.mem)⟩

/-- The search only looks at where a name leads. -/
theorem Resolver.expand_eq {resolver resolver' : Resolver}
    (leads : ∀ name, resolver'.successors name = resolver.successors name)
    (pending visited : List String) :
    resolver'.expand pending visited = resolver.expand pending visited := by
  fun_induction expand resolver pending visited with
  | case1 visited => rw [expand]
  | case2 visited next rest seen induction => rw [expand, if_pos seen, induction]
  | case3 visited next rest fresh induction => rw [expand, if_neg fresh, leads, induction]

namespace Model

/-- Two protocols that differ at most in the order in which types are declared. -/
structure ReordersTypes (model model' : Model) : Prop where
  version : model'.version = model.version
  requests : model'.requests = model.requests
  notifications : model'.notifications = model.notifications
  structures : model'.structures.Perm model.structures
  enumerations : model'.enumerations.Perm model.enumerations
  aliases : model'.aliases.Perm model.aliases

/-- No two types of one kind have the same name. -/
structure NamesTypesOnce (model : Model) : Prop where
  structures : (model.structures.map (·.name)).Nodup
  enumerations : (model.enumerations.map (·.name)).Nodup
  aliases : (model.aliases.map (·.name)).Nodup

namespace ReordersTypes

variable {model model' : Model} (reorders : model.ReordersTypes model')
  (once : model.NamesTypesOnce)

include reorders once

theorem declaredStructure?_eq (name : String) :
    model'.declaredStructure? name = model.declaredStructure? name :=
  find?_reverse_eq_of_perm reorders.structures once.structures name

theorem declaredAlias?_eq (name : String) :
    model'.declaredAlias? name = model.declaredAlias? name :=
  find?_reverse_eq_of_perm reorders.aliases once.aliases name

/-- Three kinds share one table, but a name that two kinds have counts for the later kind, whatever
the order within each. -/
theorem get?_proposedFlags_eq (name : String) :
    model'.proposedFlags.get? name = model.proposedFlags.get? name := by
  have flag {α : Type} (own : α → String) (proposed : α → Bool) {items items' : List α}
      (reordered : items'.Perm items) (distinct : (items.map own).Nodup) :
      (items'.map fun item => (own item, proposed item)).reverse.find? (·.1 == name) =
        (items.map fun item => (own item, proposed item)).reverse.find? (·.1 == name) := by
    have distinct : ((items.map fun item => (own item, proposed item)).map Prod.fst).Nodup := by
      rwa [List.map_map]
    exact find?_reverse_eq_of_perm (reordered.map _) distinct name
  simp only [proposedFlags, Dictionary.ofList, Dictionary.get?_putAll, List.reverse_append,
    List.find?_append, flag _ _ reorders.structures once.structures,
    flag _ _ reorders.enumerations once.enumerations, flag _ _ reorders.aliases once.aliases]

theorem targets_eq (includesProposed : Bool) (node : Node) :
    (Resolver.ofModel model' includesProposed).targets node =
      (Resolver.ofModel model includesProposed).targets node := by
  have follows (name : String) : (Resolver.ofModel model' includesProposed).follows name =
      (Resolver.ofModel model includesProposed).follows name := by
    simp only [Resolver.follows, Resolver.ofModel, reorders.get?_proposedFlags_eq once]
  rw [Resolver.targets, Resolver.targets, funext follows]
  rfl

theorem successors_eq (includesProposed : Bool) (name : String) :
    (Resolver.ofModel model' includesProposed).successors name =
      (Resolver.ofModel model includesProposed).successors name := by
  have targets : (Resolver.ofModel model' includesProposed).targets =
      (Resolver.ofModel model includesProposed).targets :=
    funext (reorders.targets_eq once includesProposed)
  rw [Resolver.successors, Resolver.successors, targets]
  simp only [Resolver.ofModel, reorders.declaredStructure?_eq once,
    reorders.declaredAlias?_eq once]

theorem resolve_eq (includesProposed : Bool) (names visited : List String) :
    (Resolver.ofModel model' includesProposed).resolve names visited =
      (Resolver.ofModel model includesProposed).resolve names visited :=
  Resolver.expand_eq (reorders.successors_eq once includesProposed) _ _

theorem undeclared_eq (includesProposed : Bool) (visited : List String) :
    (Resolver.ofModel model' includesProposed).undeclared visited =
      (Resolver.ofModel model includesProposed).undeclared visited := by
  simp only [Resolver.undeclared, Resolver.ofModel, Dictionary.hasKey,
    reorders.get?_proposedFlags_eq once]

end ReordersTypes
end Model
end ProtocolCodegen
