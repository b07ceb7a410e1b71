import Mathlib
import ProtocolCodegen.Proofs.Target.Proto.Aliases

/-!
# Proto: what resolving finds

An alias has one target, so from every descriptor one way leads on.  Resolving finds its end: the
descriptor that is no alias, unless the way comes back to itself or ends at an alias without a type.
An alias and its target have the same end.
-/

namespace ProtocolCodegen

/-- Where every way leads on in one direction only, all that is reached from a point that comes back
to itself comes back to itself. -/
theorem transGen_self_of_reflTransGen {α : Type} {step : α → α → Prop}
    (unique : Relator.RightUnique step) {first last : α}
    (cycle : Relation.TransGen step first first) (leads : Relation.ReflTransGen step first last) :
    Relation.TransGen step last last := by
  induction leads with
  | refl => exact cycle
  | tail _ next induction =>
      obtain ⟨second, step, back⟩ := Relation.TransGen.head'_iff.mp induction
      obtain rfl := unique step next
      exact Relation.TransGen.tail' back step

namespace Proto

variable {aliases : AliasTable} {descriptor next resolved : Descriptor}

theorem follows_rightUnique : Relator.RightUnique (Follows aliases) := by
  intro descriptor next next' follows follows'
  exact Option.some.inj (Option.some.inj (follows.symm.trans follows'))

theorem not_follows_of_unaliased (unaliased : aliasOf? aliases descriptor = none) :
    ¬Follows aliases descriptor next := by
  intro follows
  rw [Follows, unaliased] at follows
  cases follows

theorem aliasOf?_eq_of_name {other : Descriptor} (named : descriptor.kind = .named)
    (named' : other.kind = .named) (same : descriptor.name = other.name) :
    aliasOf? aliases descriptor = aliasOf? aliases other := by
  rw [aliasOf?, aliasOf?, if_pos named, if_pos named', same]

theorem kind_of_aliasOf? {target : Option Descriptor}
    (aliased : aliasOf? aliases descriptor = some target) : descriptor.kind = .named := by
  by_contra unnamed
  rw [aliasOf?_of_kind unnamed] at aliased
  cases aliased

/-- A way from an alias to a descriptor that is none does not come back to the alias. -/
theorem name_ne_of_follows (follows : Follows aliases descriptor next)
    (leads : Relation.ReflTransGen (Follows aliases) next resolved)
    (unaliased : aliasOf? aliases resolved = none) {middle : Descriptor}
    (before : Relation.ReflTransGen (Follows aliases) next middle)
    (aliased : aliasOf? aliases middle ≠ none) : middle.name ≠ descriptor.name := by
  intro same
  obtain ⟨target, found⟩ := Option.ne_none_iff_exists'.mp aliased
  have again : Follows aliases middle next := by
    rw [Follows, aliasOf?_eq_of_name (kind_of_aliasOf? found) (kind_of_follows follows).1 same]
    exact follows
  have cycle := transGen_self_of_reflTransGen follows_rightUnique (.tail' before again) leads
  obtain ⟨_, step, _⟩ := Relation.TransGen.head'_iff.mp cycle
  exact not_follows_of_unaliased unaliased step

theorem resolveFrom_of_follows
    (leads : Relation.ReflTransGen (Follows aliases) descriptor resolved)
    (unaliased : aliasOf? aliases resolved = none) {seen : List String}
    (fresh : ∀ middle, Relation.ReflTransGen (Follows aliases) descriptor middle →
      aliasOf? aliases middle ≠ none → middle.name ∉ seen) :
    resolveFrom aliases seen descriptor = some resolved := by
  induction leads using Relation.ReflTransGen.head_induction_on generalizing seen with
  | refl =>
      rw [resolveFrom]
      split
      · rfl
      · rename_i target aliased
        simp [unaliased] at aliased
  | @head descriptor next follows rest induction =>
      have aliased : aliasOf? aliases descriptor = some (some next) := follows
      have unseen : descriptor.name ∉ seen := fresh descriptor .refl (by simp [aliased])
      rw [resolveFrom]
      split
      · rename_i missing
        simp [aliased] at missing
      · rename_i target found
        obtain rfl : some next = target := Option.some.inj (aliased.symm.trans found)
        rw [dif_neg unseen]
        refine induction fun middle before aliasedMiddle listed => ?_
        rcases List.mem_cons.mp listed with same | listed
        · exact name_ne_of_follows follows rest unaliased before aliasedMiddle same
        · exact fresh middle (.head follows before) aliasedMiddle listed

/-- What resolving finds is the end of the way that aliases lead. -/
theorem resolve_eq_some_iff :
    resolve aliases descriptor = some resolved ↔
      Relation.ReflTransGen (Follows aliases) descriptor resolved ∧
        aliasOf? aliases resolved = none := by
  constructor
  · exact follows_of_resolve
  · rintro ⟨leads, unaliased⟩
    exact resolveFrom_of_follows leads unaliased fun _ _ _ => List.not_mem_nil

/-- An alias and its target stand for the same type. -/
theorem resolve_of_follows (follows : Follows aliases descriptor next) :
    resolve aliases descriptor = resolve aliases next := by
  ext resolved
  rw [resolve_eq_some_iff, resolve_eq_some_iff]
  constructor
  · rintro ⟨leads, unaliased⟩
    rcases leads.cases_head with rfl | ⟨second, step, rest⟩
    · exact absurd follows (not_follows_of_unaliased unaliased)
    · obtain rfl := follows_rightUnique step follows
      exact ⟨rest, unaliased⟩
  · rintro ⟨leads, unaliased⟩
    exact ⟨.head follows leads, unaliased⟩

/-- An alias without a type stands for nothing. -/
theorem resolve_of_missing (missing : aliasOf? aliases descriptor = some none) :
    resolve aliases descriptor = none := by
  rw [Option.eq_none_iff_forall_ne_some]
  intro resolved found
  obtain ⟨leads, unaliased⟩ := resolve_eq_some_iff.mp found
  rcases leads.cases_head with rfl | ⟨next, follows, _⟩
  · rw [missing] at unaliased
    cases unaliased
  · rw [Follows, missing] at follows
    cases follows

end Proto
end ProtocolCodegen
