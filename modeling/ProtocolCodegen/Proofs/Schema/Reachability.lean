import Mathlib.Data.List.Induction
import Mathlib.Logic.Relation
import Mathlib.Order.Bounds.Basic
import ProtocolCodegen.Schema.Closure

/-!
# Reachability under references

The closure of a selection is described without a search: declarations lead to the names that they
refer to, and the closure is the least selection that holds the requested names and every name to
which one of its members leads.  A resolver that answers one request after the other returns that
selection for all requests so far.
-/

namespace ProtocolCodegen

/-- An item is the last one of its name in a list, so that it is the one that counts. -/
def IsLastNamed {α : Type} (name : α → String) (item : α) (items : List α) : Prop :=
  ∃ before after, items = before ++ item :: after ∧ ∀ later ∈ after, name later ≠ name item

theorem find?_reverse_eq_some_iff {α : Type} {name : α → String} {items : List α} {key : String}
    {item : α} :
    items.reverse.find? (name · == key) = some item ↔
      name item = key ∧ IsLastNamed name item items := by
  rw [List.find?_eq_some_iff_append]
  constructor
  · rintro ⟨named, after, before, split, others⟩
    have named : name item = key := by simpa using named
    refine ⟨named, before.reverse, after.reverse, ?_, ?_⟩
    · simpa using congrArg List.reverse split
    · intro later listed
      simpa [named] using others later (List.mem_reverse.mp listed)
  · rintro ⟨rfl, before, after, rfl, others⟩
    refine ⟨by simp, after.reverse, before.reverse, by simp, ?_⟩
    intro later listed
    simpa using others later (List.mem_reverse.mp listed)

namespace Model

/-- Whether a name can be entered: while proposed types are left out, none of them can. -/
def Admits (model : Model) (includesProposed : Bool) (name : String) : Prop :=
  model.isProposed name = true → includesProposed = true

/-- One step from a declared name to a name that its declaration refers to.  Of several declarations
of one kind the last one counts, and an alias only counts if no record has its name. -/
inductive Leads (model : Model) (includesProposed : Bool) : String → String → Prop where
  | ofProperty {declared : Structure} {property : Property Node} {target : String}
      (counts : IsLastNamed Structure.name declared model.structures)
      (listed : property ∈ declared.properties)
      (kept : property.proposed = true → includesProposed = true)
      (mentioned : target ∈ Node.referenceSet includesProposed (some property.type))
      (admitted : model.Admits includesProposed target) :
      Leads model includesProposed declared.name target
  | ofParent {declared : Structure} {parent : Node} {target : String}
      (counts : IsLastNamed Structure.name declared model.structures)
      (listed : parent ∈ declared.parents)
      (mentioned : target ∈ Node.referenceSet includesProposed (some parent))
      (admitted : model.Admits includesProposed target) :
      Leads model includesProposed declared.name target
  | ofMixin {declared : Structure} {mixin : Node} {target : String}
      (counts : IsLastNamed Structure.name declared model.structures)
      (listed : mixin ∈ declared.mixins)
      (mentioned : target ∈ Node.referenceSet includesProposed (some mixin))
      (admitted : model.Admits includesProposed target) :
      Leads model includesProposed declared.name target
  | ofAlias {declared : TypeAlias} {target : String}
      (unrecorded : ∀ other ∈ model.structures, other.name ≠ declared.name)
      (counts : IsLastNamed TypeAlias.name declared model.aliases)
      (mentioned : target ∈ Node.referenceSet includesProposed declared.type)
      (admitted : model.Admits includesProposed target) :
      Leads model includesProposed declared.name target

/-- A selection is closed if its members lead to members only. -/
def IsClosed (model : Model) (includesProposed : Bool) (names : Set String) : Prop :=
  ∀ source ∈ names, ∀ target, model.Leads includesProposed source target → target ∈ names

theorem declaredStructure?_eq_some_iff {model : Model} {name : String} {declared : Structure} :
    model.declaredStructure? name = some declared ↔
      declared.name = name ∧ IsLastNamed Structure.name declared model.structures :=
  find?_reverse_eq_some_iff

theorem declaredStructure?_eq_none_iff {model : Model} {name : String} :
    model.declaredStructure? name = none ↔ ∀ other ∈ model.structures, other.name ≠ name := by
  simp [declaredStructure?, List.find?_eq_none]

theorem declaredAlias?_eq_some_iff {model : Model} {name : String} {declared : TypeAlias} :
    model.declaredAlias? name = some declared ↔
      declared.name = name ∧ IsLastNamed TypeAlias.name declared model.aliases :=
  find?_reverse_eq_some_iff

end Model

namespace Resolver

variable {model : Model} {includesProposed : Bool}

theorem mem_targets_iff {node : Node} {target : String} :
    target ∈ (ofModel model includesProposed).targets node ↔
      target ∈ Node.referenceSet includesProposed (some node) ∧
        model.Admits includesProposed target := by
  simp only [targets, follows, ofModel, List.mem_filter, Node.referenceSet, Option.map_some,
    Option.getD_some, Model.Admits, Model.isProposed]
  cases includesProposed <;> simp

theorem mem_successors_of_structure {source target : String} {declared : Structure}
    (found : model.declaredStructure? source = some declared) :
    target ∈ (ofModel model includesProposed).successors source ↔
      (∃ property ∈ declared.properties, (property.proposed = true → includesProposed = true) ∧
        target ∈ (ofModel model includesProposed).targets property.type) ∨
      (∃ parent ∈ declared.parents, target ∈ (ofModel model includesProposed).targets parent) ∨
      ∃ mixin ∈ declared.mixins, target ∈ (ofModel model includesProposed).targets mixin := by
  have record : (ofModel model includesProposed).model.declaredStructure? source =
      some declared := found
  simp only [successors, record, List.mem_append, List.mem_flatMap, List.mem_filter, or_assoc,
    and_assoc]
  cases includesProposed <;> simp [ofModel]

theorem mem_successors_of_alias {source target : String} {declared : TypeAlias}
    (unrecorded : model.declaredStructure? source = none)
    (found : model.declaredAlias? source = some declared) :
    target ∈ (ofModel model includesProposed).successors source ↔
      target ∈ Node.referenceSet includesProposed declared.type ∧
        model.Admits includesProposed target := by
  have record : (ofModel model includesProposed).model.declaredStructure? source = none :=
    unrecorded
  have named : (ofModel model includesProposed).model.declaredAlias? source = some declared :=
    found
  simp only [successors, record, named]
  cases declared.type with
  | none => simp [Node.referenceSet, Text.sortedSet, Text.sorted]
  | some node => simpa using mem_targets_iff

theorem mem_successors_iff {source target : String} :
    target ∈ (ofModel model includesProposed).successors source ↔
      model.Leads includesProposed source target := by
  constructor
  · intro listed
    cases record : model.declaredStructure? source with
    | some declared =>
        obtain ⟨rfl, counts⟩ := Model.declaredStructure?_eq_some_iff.mp record
        rcases (mem_successors_of_structure record).mp listed with
          ⟨property, listed, kept, leads⟩ | ⟨parent, listed, leads⟩ | ⟨mixin, listed, leads⟩
        · obtain ⟨mentioned, admitted⟩ := mem_targets_iff.mp leads
          exact .ofProperty counts listed kept mentioned admitted
        · obtain ⟨mentioned, admitted⟩ := mem_targets_iff.mp leads
          exact .ofParent counts listed mentioned admitted
        · obtain ⟨mentioned, admitted⟩ := mem_targets_iff.mp leads
          exact .ofMixin counts listed mentioned admitted
    | none =>
        cases named : model.declaredAlias? source with
        | some declared =>
            obtain ⟨mentioned, admitted⟩ := (mem_successors_of_alias record named).mp listed
            obtain ⟨rfl, counts⟩ := Model.declaredAlias?_eq_some_iff.mp named
            have unrecorded := Model.declaredStructure?_eq_none_iff.mp record
            exact .ofAlias unrecorded counts mentioned admitted
        | none =>
            exfalso
            simp [successors, ofModel, record, named] at listed
  · intro leads
    cases leads with
    | ofProperty counts listed kept mentioned admitted =>
        have record := Model.declaredStructure?_eq_some_iff.mpr ⟨rfl, counts⟩
        exact (mem_successors_of_structure record).mpr
          (.inl ⟨_, listed, kept, mem_targets_iff.mpr ⟨mentioned, admitted⟩⟩)
    | ofParent counts listed mentioned admitted =>
        have record := Model.declaredStructure?_eq_some_iff.mpr ⟨rfl, counts⟩
        exact (mem_successors_of_structure record).mpr
          (.inr (.inl ⟨_, listed, mem_targets_iff.mpr ⟨mentioned, admitted⟩⟩))
    | ofMixin counts listed mentioned admitted =>
        have record := Model.declaredStructure?_eq_some_iff.mpr ⟨rfl, counts⟩
        exact (mem_successors_of_structure record).mpr
          (.inr (.inr ⟨_, listed, mem_targets_iff.mpr ⟨mentioned, admitted⟩⟩))
    | ofAlias unrecorded counts mentioned admitted =>
        have record := Model.declaredStructure?_eq_none_iff.mpr unrecorded
        have named := Model.declaredAlias?_eq_some_iff.mpr ⟨rfl, counts⟩
        exact (mem_successors_of_alias record named).mpr ⟨mentioned, admitted⟩

/-! ## The search -/

theorem mem_expand_of_mem_visited {resolver : Resolver} {pending visited : List String}
    {name : String} (seen : name ∈ visited) : name ∈ resolver.expand pending visited := by
  fun_induction expand resolver pending visited with
  | case1 visited => exact seen
  | case2 visited next rest _ induction => exact induction seen
  | case3 visited next rest _ induction => exact induction (List.mem_cons_of_mem _ seen)

theorem mem_expand_of_mem_pending {resolver : Resolver} {pending visited : List String}
    {name : String} (waiting : name ∈ pending) : name ∈ resolver.expand pending visited := by
  fun_induction expand resolver pending visited with
  | case1 visited => cases waiting
  | case2 visited next rest seen induction =>
      rcases List.mem_cons.mp waiting with rfl | later
      · exact mem_expand_of_mem_visited seen
      · exact induction later
  | case3 visited next rest fresh induction =>
      rcases List.mem_cons.mp waiting with rfl | later
      · exact mem_expand_of_mem_visited List.mem_cons_self
      · exact induction (List.mem_append_right _ later)

/-- A name counts as visited before its successors are, so on a cycle a visited name can still have
successors that are only pending; none of them is ever dropped. -/
def Covers (resolver : Resolver) (pending visited : List String) : Prop :=
  ∀ source ∈ visited, ∀ target ∈ resolver.successors source, target ∈ visited ∨ target ∈ pending

theorem Covers.skip {resolver : Resolver} {next : String} {rest visited : List String}
    (covers : resolver.Covers (next :: rest) visited) (seen : next ∈ visited) :
    resolver.Covers rest visited := by
  intro source known target listed
  rcases covers source known target listed with found | waiting
  · exact .inl found
  · rcases List.mem_cons.mp waiting with rfl | later
    · exact .inl seen
    · exact .inr later

theorem Covers.visit {resolver : Resolver} {next : String} {rest visited : List String}
    (covers : resolver.Covers (next :: rest) visited) :
    resolver.Covers (resolver.successors next ++ rest) (next :: visited) := by
  intro source known target listed
  rcases List.mem_cons.mp known with rfl | before
  · exact .inr (List.mem_append_left _ listed)
  · rcases covers source before target listed with found | waiting
    · exact .inl (List.mem_cons_of_mem _ found)
    · rcases List.mem_cons.mp waiting with rfl | later
      · exact .inl List.mem_cons_self
      · exact .inr (List.mem_append_right _ later)

theorem covers_expand {resolver : Resolver} {pending visited : List String}
    (covers : resolver.Covers pending visited) :
    resolver.Covers [] (resolver.expand pending visited) := by
  fun_induction expand resolver pending visited with
  | case1 visited => exact covers
  | case2 visited next rest seen induction => exact induction (covers.skip seen)
  | case3 visited next rest _ induction => exact induction covers.visit

/-- Nothing is visited that does not lie in every closed selection around the start. -/
theorem expand_subset {resolver : Resolver} {pending visited : List String} {names : Set String}
    (closed : ∀ source ∈ names, ∀ target ∈ resolver.successors source, target ∈ names)
    (seen : ∀ name ∈ visited, name ∈ names) (waiting : ∀ name ∈ pending, name ∈ names) :
    ∀ name ∈ resolver.expand pending visited, name ∈ names := by
  fun_induction expand resolver pending visited with
  | case1 visited => exact seen
  | case2 visited next rest _ induction =>
      exact induction seen fun name listed => waiting name (List.mem_cons_of_mem _ listed)
  | case3 visited next rest _ induction =>
      have next_mem : next ∈ names := waiting next List.mem_cons_self
      apply induction
      · simpa [next_mem] using seen
      · intro name listed
        rcases List.mem_append.mp listed with successor | later
        · exact closed next next_mem name successor
        · exact waiting name (List.mem_cons_of_mem _ later)

theorem nodup_expand {resolver : Resolver} {pending visited : List String}
    (distinct : visited.Nodup) : (resolver.expand pending visited).Nodup := by
  fun_induction expand resolver pending visited with
  | case1 visited => exact distinct
  | case2 visited next rest _ induction => exact induction distinct
  | case3 visited next rest fresh induction =>
      exact induction (List.nodup_cons.mpr ⟨fresh, distinct⟩)

/-! ## Requests one after the other -/

/-- The names visited after a sequence of requests. -/
def visitedAfter (resolver : Resolver) (requests : List (List String)) : List String :=
  requests.foldl (fun visited names => resolver.resolve names visited) []

theorem visitedAfter_concat (resolver : Resolver) (requests : List (List String))
    (names : List String) :
    resolver.visitedAfter (requests ++ [names]) =
      resolver.resolve names (resolver.visitedAfter requests) := by
  simp [visitedAfter]

theorem nodup_visitedAfter (resolver : Resolver) (requests : List (List String)) :
    (resolver.visitedAfter requests).Nodup := by
  induction requests using List.reverseRecOn with
  | nil => exact List.nodup_nil
  | append_singleton requests names induction =>
      rw [visitedAfter_concat]
      exact nodup_expand induction

theorem covers_visitedAfter (resolver : Resolver) (requests : List (List String)) :
    resolver.Covers [] (resolver.visitedAfter requests) := by
  induction requests using List.reverseRecOn with
  | nil =>
      intro source known
      cases known
  | append_singleton requests names induction =>
      rw [visitedAfter_concat]
      apply covers_expand
      intro source known target listed
      exact .inl ((induction source known target listed).resolve_right List.not_mem_nil)

theorem mem_visitedAfter_of_requested {resolver : Resolver} {requests : List (List String)}
    {names : List String} {name : String} (asked : names ∈ requests) (listed : name ∈ names) :
    name ∈ resolver.visitedAfter requests := by
  induction requests using List.reverseRecOn with
  | nil => cases asked
  | append_singleton requests last induction =>
      rw [visitedAfter_concat]
      rcases List.mem_append.mp asked with before | now
      · exact mem_expand_of_mem_visited (induction before)
      · obtain rfl := List.mem_singleton.mp now
        exact mem_expand_of_mem_pending (Text.mem_sorted.mpr listed)

theorem visitedAfter_subset {resolver : Resolver} {requests : List (List String)}
    {selection : Set String}
    (closed : ∀ source ∈ selection, ∀ target ∈ resolver.successors source, target ∈ selection)
    (holds : ∀ names ∈ requests, ∀ name ∈ names, name ∈ selection) :
    ∀ name ∈ resolver.visitedAfter requests, name ∈ selection := by
  induction requests using List.reverseRecOn with
  | nil =>
      intro name listed
      cases listed
  | append_singleton requests last induction =>
      rw [visitedAfter_concat]
      apply expand_subset closed
      · exact induction fun names asked => holds names (List.mem_append_left _ asked)
      · intro name listed
        exact holds last (by simp) name (Text.mem_sorted.mp listed)

end Resolver

namespace Model

/-- The selections that hold all requested names and are closed. -/
def closedSelections (model : Model) (includesProposed : Bool) (requests : List (List String)) :
    Set (Set String) :=
  {selection | (∀ names ∈ requests, ∀ name ∈ names, name ∈ selection) ∧
    model.IsClosed includesProposed selection}

theorem isLeast_visitedAfter (model : Model) (includesProposed : Bool)
    (requests : List (List String)) :
    IsLeast (model.closedSelections includesProposed requests)
      {name | name ∈ (Resolver.ofModel model includesProposed).visitedAfter requests} := by
  constructor
  · refine ⟨fun names asked name listed => Resolver.mem_visitedAfter_of_requested asked listed, ?_⟩
    intro source visited target leads
    have covered := Resolver.covers_visitedAfter (Resolver.ofModel model includesProposed) requests
      source visited target (Resolver.mem_successors_iff.mpr leads)
    exact covered.resolve_right List.not_mem_nil
  · rintro selection ⟨holds, closed⟩
    apply Resolver.visitedAfter_subset _ holds
    intro source member target listed
    exact closed source member target (Resolver.mem_successors_iff.mp listed)

/-- The names that can be reached from the requested ones form the least closed selection. -/
theorem isLeast_reachable (model : Model) (includesProposed : Bool)
    (requests : List (List String)) :
    IsLeast (model.closedSelections includesProposed requests)
      {name | ∃ names ∈ requests, ∃ start ∈ names,
        Relation.ReflTransGen (model.Leads includesProposed) start name} := by
  constructor
  · constructor
    · intro names asked name listed
      exact ⟨names, asked, name, listed, .refl⟩
    · rintro source ⟨names, asked, start, listed, path⟩ target leads
      exact ⟨names, asked, start, listed, path.tail leads⟩
  · rintro selection ⟨holds, closed⟩ name ⟨names, asked, start, listed, path⟩
    induction path with
    | refl => exact holds names asked start listed
    | tail _ leads induction => exact closed _ induction _ leads

/-- Whatever was requested before, a resolver answers a request with the least closed selection
around all names requested so far, each of them once.  These are the names that can be reached from
the requested ones. -/
theorem resolve_isLeast (model : Model) (includesProposed : Bool) (earlier : List (List String))
    (names : List String) :
    let resolver := Resolver.ofModel model includesProposed
    let answer := resolver.resolve names (resolver.visitedAfter earlier)
    IsLeast (model.closedSelections includesProposed (earlier ++ [names])) {name | name ∈ answer} ∧
      (∀ name, name ∈ answer ↔ ∃ request ∈ earlier ++ [names], ∃ start ∈ request,
        Relation.ReflTransGen (model.Leads includesProposed) start name) ∧
      answer.Nodup := by
  intro resolver answer
  have answer_eq : answer = resolver.visitedAfter (earlier ++ [names]) :=
    (resolver.visitedAfter_concat earlier names).symm
  have least := model.isLeast_visitedAfter includesProposed (earlier ++ [names])
  have reachable := model.isLeast_reachable includesProposed (earlier ++ [names])
  rw [answer_eq]
  refine ⟨least, fun name => ?_, resolver.nodup_visitedAfter _⟩
  exact Set.ext_iff.mp (least.unique reachable) name

end Model
end ProtocolCodegen
