import Mathlib
import ProtocolCodegen.Target.Proto.Text

/-!
# Proto: the ways of aliases

Spelling a type goes from an alias to its target and from an optional type to the type that can be
absent.  Where no alias comes back to itself on this way, an alias that was passed is not met again,
and what is left to visit gets smaller with every step.
-/

namespace ProtocolCodegen.Proto

variable {aliases : AliasTable}

/-! ## Resolving -/

/-- A descriptor refers to an alias of a type. -/
def Follows (aliases : AliasTable) (descriptor next : Descriptor) : Prop :=
  aliasOf? aliases descriptor = some (some next)

theorem kind_of_follows {descriptor next : Descriptor} (follows : Follows aliases descriptor next) :
    descriptor.kind = .named ∧ aliases.get? descriptor.name = some (some next) := by
  rw [Follows, aliasOf?] at follows
  split at follows
  · exact ⟨‹_›, follows⟩
  · cases follows

theorem follows_of_resolveFrom {seen : List String} {descriptor resolved : Descriptor}
    (found : resolveFrom aliases seen descriptor = some resolved) :
    Relation.ReflTransGen (Follows aliases) descriptor resolved ∧
      aliasOf? aliases resolved = none := by
  fun_induction resolveFrom aliases seen descriptor with
  | case1 seen descriptor unaliased =>
      cases found
      exact ⟨.refl, unaliased⟩
  | case2 => cases found
  | case3 => cases found
  | case4 seen descriptor fresh next aliased _ _ induction =>
      obtain ⟨follows, unaliased⟩ := induction found
      exact ⟨.head aliased follows, unaliased⟩

/-- Resolving follows aliases to a descriptor that does not refer to one. -/
theorem follows_of_resolve {descriptor resolved : Descriptor}
    (found : resolve aliases descriptor = some resolved) :
    Relation.ReflTransGen (Follows aliases) descriptor resolved ∧
      aliasOf? aliases resolved = none :=
  follows_of_resolveFrom found

theorem aliasOf?_of_kind {descriptor : Descriptor} (unnamed : descriptor.kind ≠ .named) :
    aliasOf? aliases descriptor = none :=
  if_neg unnamed

theorem resolve_of_unaliased {descriptor : Descriptor}
    (unaliased : aliasOf? aliases descriptor = none) :
    resolve aliases descriptor = some descriptor := by
  rw [resolve, resolveFrom]
  split
  · rfl
  · rename_i target aliased
    simp [unaliased] at aliased

/-! ## Ways without a cycle -/

/-- A step from an alias to its target, or from an optional type to the type that can be absent. -/
inductive Unwraps (aliases : AliasTable) : Descriptor → Descriptor → Prop where
  | target {descriptor next : Descriptor} (follows : Follows aliases descriptor next) :
      Unwraps aliases descriptor next
  | present {descriptor inner : Descriptor} (optional : descriptor.kind = .optional)
      (first : descriptor.arguments.head? = some inner) : Unwraps aliases descriptor inner

/-- No alias reaches itself through aliases and optional types. -/
def IsAcyclic (aliases : AliasTable) : Prop :=
  ∀ descriptor, aliasOf? aliases descriptor ≠ none →
    ¬Relation.TransGen (Unwraps aliases) descriptor descriptor

theorem isAcyclic_of_targets (ends : ∀ name target, aliases.get? name = some (some target) →
    target.kind ≠ .named ∧ target.kind ≠ .optional) : IsAcyclic aliases := by
  intro descriptor aliased cycle
  have named : descriptor.kind = .named := by
    by_contra unnamed
    exact aliased (aliasOf?_of_kind unnamed)
  obtain ⟨target, step, leads⟩ := Relation.TransGen.head'_iff.mp cycle
  cases step with
  | present optional _ => simp [named] at optional
  | target follows =>
      obtain ⟨unnamed, unoptional⟩ := ends _ target (kind_of_follows follows).2
      rcases Relation.ReflTransGen.cases_head leads with rfl | ⟨next, step, _⟩
      · exact unnamed named
      · cases step with
        | target follows => exact unnamed (kind_of_follows follows).1
        | present optional _ => exact unoptional optional

/-- Aliases of some names lie before a descriptor. -/
def Behind (aliases : AliasTable) (names : List String) (descriptor : Descriptor) : Prop :=
  ∀ name ∈ names, ∃ origin : Descriptor, origin.kind = .named ∧ origin.name = name ∧
    Relation.TransGen (Unwraps aliases) origin descriptor

theorem Behind.step {names : List String} {descriptor next : Descriptor}
    (behind : Behind aliases names descriptor) (step : Unwraps aliases descriptor next) :
    Behind aliases names next := by
  intro name listed
  obtain ⟨origin, named, same, leads⟩ := behind name listed
  exact ⟨origin, named, same, leads.tail step⟩

/-- Number of descriptors within the targets of the aliases that were not passed. -/
def sizeAhead (aliases : AliasTable) (passed : List String) : Nat :=
  sizes ((aliases.filter (·.1 ∉ passed)).filterMap (·.2))

theorem sizeAhead_cons (name : String) (target : Option Descriptor) (rest : AliasTable)
    (passed : List String) :
    sizeAhead ((name, target) :: rest) passed =
      (if name ∈ passed then 0 else target.elim 0 size) + sizeAhead rest passed := by
  by_cases listed : name ∈ passed
  · simp [sizeAhead, listed]
  · cases target <;> simp [sizeAhead, listed, sizes]

theorem sizeAhead_cons_passed_le (aliases : AliasTable) (name : String) (passed : List String) :
    sizeAhead aliases (name :: passed) ≤ sizeAhead aliases passed := by
  induction aliases with
  | nil => exact Nat.le_refl _
  | cons entry rest induction =>
      obtain ⟨other, target⟩ := entry
      rw [sizeAhead_cons, sizeAhead_cons]
      refine Nat.add_le_add ?_ induction
      by_cases listed : other ∈ passed
      · simp [listed]
      · rw [if_neg listed]
        split <;> omega

theorem size_add_sizeAhead_le {passed : List String} {name : String} {target : Descriptor}
    (found : aliases.get? name = some (some target)) (fresh : name ∉ passed) :
    size target + sizeAhead aliases (name :: passed) ≤ sizeAhead aliases passed := by
  induction aliases with
  | nil => cases found
  | cons entry rest induction =>
      obtain ⟨other, value⟩ := entry
      rw [sizeAhead_cons, sizeAhead_cons]
      rw [Dictionary.get?] at found
      split at found
      · rename_i same
        subst same
        cases found
        have rest_le := sizeAhead_cons_passed_le rest other passed
        simp only [List.mem_cons_self, if_true, if_neg fresh, Option.elim_some]
        omega
      · rename_i different
        have rest_le := induction found
        simp only [List.mem_cons, different, false_or]
        omega

/-- Where aliases are acyclic, resolving passes an alias that was not passed before, or none. -/
theorem exists_passed_of_resolve (acyclic : IsAcyclic aliases) {passed : List String}
    {descriptor resolved : Descriptor} (behind : Behind aliases passed descriptor)
    (found : resolve aliases descriptor = some resolved) :
    ∃ passed', Behind aliases passed' resolved ∧
      size resolved + sizeAhead aliases passed' ≤ size descriptor + sizeAhead aliases passed := by
  obtain ⟨follows, _⟩ := follows_of_resolve found
  have unwraps {first second : Descriptor}
      (follows : Relation.ReflTransGen (Follows aliases) first second) :
      Relation.ReflTransGen (Unwraps aliases) first second :=
    Relation.ReflTransGen.mono (fun _ _ => .target) _ _ follows
  rcases Relation.ReflTransGen.cases_tail_iff _ _ _ |>.mp follows with rfl | ⟨last, before, follows⟩
  · exact ⟨passed, behind, Nat.le_refl _⟩
  · obtain ⟨named, target⟩ := kind_of_follows follows
    have fresh : last.name ∉ passed := by
      intro listed
      obtain ⟨origin, named', same, leads⟩ := behind last.name listed
      obtain ⟨next, step, leads⟩ := Relation.TransGen.head'_iff.mp leads
      cases step with
      | present optional _ => simp [named'] at optional
      | target follows' =>
          obtain ⟨_, target'⟩ := kind_of_follows follows'
          obtain rfl : next = resolved := by simpa [same, target] using target'.symm
          refine acyclic last (Option.ne_none_iff_exists'.mpr ⟨_, follows⟩) ?_
          exact .head' (.target follows) (leads.trans (unwraps before))
    refine ⟨last.name :: passed, ?_, ?_⟩
    · intro name listed
      rcases List.mem_cons.mp listed with rfl | listed
      · exact ⟨last, named, rfl, .single (.target follows)⟩
      · obtain ⟨origin, named', same, leads⟩ := behind name listed
        exact ⟨origin, named', same, (leads.trans_left (unwraps before)).tail (.target follows)⟩
    · have smaller := size_add_sizeAhead_le target fresh
      omega

theorem size_le_sizes {descriptor : Descriptor} {descriptors : List Descriptor}
    (listed : descriptor ∈ descriptors) : size descriptor ≤ sizes descriptors := by
  induction descriptors with
  | nil => cases listed
  | cons first rest induction =>
      rw [sizes]
      rcases List.mem_cons.mp listed with rfl | listed
      · exact Nat.le_add_right _ _
      · exact (induction listed).trans (Nat.le_add_left _ _)

theorem size_argument_lt {descriptor argument : Descriptor}
    (listed : argument ∈ descriptor.arguments) : size argument < size descriptor := by
  obtain ⟨kind, name, category, arguments, constant⟩ := descriptor
  rw [size]
  exact Nat.lt_succ_of_le (size_le_sizes listed)

/-- Aliases are acyclic, and a number of steps is enough for what is left to visit behind a
descriptor, with some more to spare. -/
def IsEnough (aliases : AliasTable) (spare steps : Nat) (descriptor : Descriptor) : Prop :=
  IsAcyclic aliases ∧ ∃ passed, Behind aliases passed descriptor ∧
    size descriptor + sizeAhead aliases passed + spare < steps

variable {spare steps : Nat} {descriptor : Descriptor}

theorem not_isEnough_zero : ¬IsEnough aliases spare 0 descriptor := by
  rintro ⟨_, _, _, fewer⟩
  exact Nat.not_lt_zero _ fewer

theorem IsEnough.resolved {resolved : Descriptor} (enough : IsEnough aliases spare steps descriptor)
    (found : resolve aliases descriptor = some resolved) :
    IsEnough aliases spare steps resolved := by
  obtain ⟨acyclic, passed, behind, fewer⟩ := enough
  obtain ⟨passed', behind', less⟩ := exists_passed_of_resolve acyclic behind found
  exact ⟨acyclic, passed', behind', by omega⟩

theorem IsEnough.without (enough : IsEnough aliases spare steps descriptor) :
    IsEnough aliases 0 steps descriptor := by
  obtain ⟨acyclic, passed, behind, fewer⟩ := enough
  exact ⟨acyclic, passed, behind, by omega⟩

theorem IsEnough.present {inner : Descriptor}
    (enough : IsEnough aliases spare (steps + 1) (.optional inner)) :
    IsEnough aliases spare steps inner := by
  obtain ⟨acyclic, passed, behind, fewer⟩ := enough
  have smaller : size inner < size (.optional inner) := size_argument_lt List.mem_cons_self
  exact ⟨acyclic, passed, behind.step (.present rfl rfl), by omega⟩

/-- What is spared is enough to begin anew at an argument. -/
theorem IsEnough.argument {argument : Descriptor}
    (enough : IsEnough aliases (sizeAhead aliases []) (steps + 1) descriptor)
    (listed : argument ∈ descriptor.arguments) : IsEnough aliases 0 steps argument := by
  obtain ⟨acyclic, passed, _, fewer⟩ := enough
  have smaller := size_argument_lt listed
  refine ⟨acyclic, [], ?_, by omega⟩
  exact fun name listed => absurd listed List.not_mem_nil

theorem isEnough_spellingBound (acyclic : IsAcyclic aliases) (descriptor : Descriptor) :
    IsEnough aliases (sizeAhead aliases []) (spellingBound aliases descriptor) descriptor := by
  have all : sizeAhead aliases [] = sizes (aliases.filterMap (·.2)) := by
    simp [sizeAhead]
  refine ⟨acyclic, [], ?_, ?_⟩
  · exact fun name listed => absurd listed List.not_mem_nil
  · rw [spellingBound, ← all]
    omega

end ProtocolCodegen.Proto
