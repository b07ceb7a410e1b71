import Mathlib
import ProtocolCodegen.Proofs.Target.Proto.Resolving

/-!
# Proto: how resolving ends

From a descriptor references to aliases lead on, one after the other.  Resolving takes one turn for
each of them and remembers which aliases it has passed, so it ends after at most one turn more than
there are aliases.  It finds the first descriptor that refers to no alias, and nothing exactly if an
alias is met again or has no type.
-/

namespace ProtocolCodegen.Proto

variable {aliases : AliasTable} {descriptor last next resolved : Descriptor}

/-! ## Turns of the search -/

/-- Where the search for a type stands: the aliases that it has passed, and the descriptor that it
has come to, unless an alias had no type. -/
structure Search where
  passed : List String
  reached : Option Descriptor

namespace Search

/-- One turn of the search: it goes on, or it ends with what it has found. -/
def turn (aliases : AliasTable) (search : Search) : Search ⊕ Option Descriptor :=
  match search.reached with
  | none => .inr none
  | some descriptor =>
      match aliasOf? aliases descriptor with
      | none => .inr (some descriptor)
      | some target =>
          if descriptor.name ∈ search.passed then .inr none
          else .inl ⟨descriptor.name :: search.passed, target⟩

/-- What the search finds within a number of turns, if it has ended by then. -/
def run (aliases : AliasTable) : Nat → Search → Option (Option Descriptor)
  | 0, _ => none
  | turns + 1, search =>
      match search.turn aliases with
      | .inl next => run aliases turns next
      | .inr result => some result

theorem run_of_ends {search : Search} {result : Option Descriptor} {turns : Nat}
    (ends : search.turn aliases = .inr result) (positive : 0 < turns) :
    run aliases turns search = some result := by
  obtain ⟨others, rfl⟩ := Nat.exists_eq_add_one_of_ne_zero positive.ne'
  rw [run, ends]

theorem run_of_goes_on {search next : Search} (turns : Nat)
    (goesOn : search.turn aliases = .inl next) :
    run aliases (turns + 1) search = run aliases turns next := by
  rw [run, goesOn]

/-- Each alias that is passed leaves fewer to pass. -/
theorem run_eq_resolveFrom {turns : Nat} (passed : List String)
    (enough : (remaining aliases.keys passed).length < turns) :
    run aliases turns ⟨passed, some descriptor⟩ = some (resolveFrom aliases passed descriptor) := by
  fun_induction resolveFrom aliases passed descriptor generalizing turns with
  | case1 passed descriptor unaliased =>
      exact run_of_ends (by simp [turn, unaliased]) (Nat.zero_lt_of_lt enough)
  | case2 passed descriptor target aliased seen =>
      exact run_of_ends (by simp [turn, aliased, seen]) (Nat.zero_lt_of_lt enough)
  | case3 passed descriptor fresh aliased fewer =>
      obtain ⟨others, rfl⟩ := Nat.exists_eq_add_one_of_ne_zero (Nat.ne_zero_of_lt enough)
      have goesOn : turn aliases ⟨passed, some descriptor⟩ =
          .inl ⟨descriptor.name :: passed, none⟩ := by simp [turn, aliased, fresh]
      -- That the alias has no type is found in the turn that follows.
      rw [run_of_goes_on others goesOn]
      exact run_of_ends rfl (by omega)
  | case4 passed descriptor fresh next aliased fewer _ induction =>
      obtain ⟨others, rfl⟩ := Nat.exists_eq_add_one_of_ne_zero (Nat.ne_zero_of_lt enough)
      have goesOn : turn aliases ⟨passed, some descriptor⟩ =
          .inl ⟨descriptor.name :: passed, some next⟩ := by simp [turn, aliased, fresh]
      rw [run_of_goes_on others goesOn]
      exact induction (by omega)

end Search

/-! ## Stations -/

/-- The descriptor to which a number of references lead, if they lead so far. -/
def stationAt (aliases : AliasTable) (descriptor : Descriptor) : Nat → Option Descriptor
  | 0 => some descriptor
  | steps + 1 => (stationAt aliases descriptor steps).bind fun last => (aliasOf? aliases last).join

theorem stationAt_succ_eq_some_iff {steps : Nat} :
    stationAt aliases descriptor (steps + 1) = some next ↔
      ∃ last, stationAt aliases descriptor steps = some last ∧ Follows aliases last next := by
  simp only [stationAt, Option.bind_eq_some_iff, Option.join_eq_some_iff, Follows]

theorem stationAt_add (first second : Nat) : stationAt aliases descriptor (first + second) =
    (stationAt aliases descriptor first).bind fun middle => stationAt aliases middle second := by
  induction second with
  | zero => simp [stationAt]
  | succ second induction => rw [← Nat.add_assoc, stationAt, induction, Option.bind_assoc]; rfl

theorem exists_stationAt_iff : (∃ steps, stationAt aliases descriptor steps = some last) ↔
    Relation.ReflTransGen (Follows aliases) descriptor last := by
  constructor
  · rintro ⟨steps, reached⟩
    induction steps generalizing last with
    | zero =>
        cases reached
        exact .refl
    | succ steps induction =>
        obtain ⟨before, reached, follows⟩ := stationAt_succ_eq_some_iff.mp reached
        exact (induction reached).tail follows
  · intro leads
    induction leads with
    | refl => exact ⟨0, rfl⟩
    | tail _ follows induction =>
        obtain ⟨steps, reached⟩ := induction
        exact ⟨steps + 1, stationAt_succ_eq_some_iff.mpr ⟨_, reached, follows⟩⟩

theorem exists_stationAt_succ_iff :
    (∃ steps, stationAt aliases descriptor (steps + 1) = some last) ↔
      Relation.TransGen (Follows aliases) descriptor last := by
  rw [Relation.TransGen.tail'_iff]
  simp only [stationAt_succ_eq_some_iff, ← exists_stationAt_iff]
  constructor
  · rintro ⟨steps, before, reached, follows⟩
    exact ⟨before, ⟨steps, reached⟩, follows⟩
  · rintro ⟨before, ⟨steps, reached⟩, follows⟩
    exact ⟨steps, before, reached, follows⟩

/-! ## Ends -/

/-- After a number of references the way is at a reference to an alias. -/
def RefersAt (aliases : AliasTable) (descriptor : Descriptor) (steps : Nat) (name : String) :
    Prop :=
  ∃ last, stationAt aliases descriptor steps = some last ∧ aliasOf? aliases last ≠ none ∧
    last.name = name

/-- The way comes to an alias a second time. -/
def Revisits (aliases : AliasTable) (descriptor : Descriptor) : Prop :=
  ∃ first second name, first < second ∧ RefersAt aliases descriptor first name ∧
    RefersAt aliases descriptor second name

/-- The way comes to an alias without a type. -/
def LacksType (aliases : AliasTable) (descriptor : Descriptor) : Prop :=
  ∃ steps last, stationAt aliases descriptor steps = some last ∧
    aliasOf? aliases last = some none

/-- The first descriptor on the way that refers to no alias. -/
def EndsAt (aliases : AliasTable) (descriptor resolved : Descriptor) : Prop :=
  ∃ steps, stationAt aliases descriptor steps = some resolved ∧ aliasOf? aliases resolved = none ∧
    ∀ earlier < steps, ∃ name, RefersAt aliases descriptor earlier name

theorem exists_way_between {first second : Nat} (before : first < second)
    (reached : stationAt aliases descriptor second = some last) :
    ∃ passed, stationAt aliases descriptor first = some passed ∧
      Relation.TransGen (Follows aliases) passed last := by
  obtain ⟨further, rfl⟩ := Nat.exists_eq_add_of_lt before
  rw [Nat.add_assoc, stationAt_add, Option.bind_eq_some_iff] at reached
  obtain ⟨passed, reached, leads⟩ := reached
  exact ⟨passed, reached, exists_stationAt_succ_iff.mp ⟨further, leads⟩⟩

theorem aliasOf?_ne_none_of_transGen
    (leads : Relation.TransGen (Follows aliases) descriptor last) :
    aliasOf? aliases descriptor ≠ none := by
  obtain ⟨next, follows, _⟩ := Relation.TransGen.head'_iff.mp leads
  exact fun unaliased => not_follows_of_unaliased unaliased follows

theorem revisits_iff : Revisits aliases descriptor ↔
    ∃ passed again, Relation.ReflTransGen (Follows aliases) descriptor passed ∧
      Relation.TransGen (Follows aliases) passed again ∧ aliasOf? aliases again ≠ none ∧
      again.name = passed.name := by
  constructor
  · rintro ⟨first, second, name, before, ⟨passed, atFirst, _, rfl⟩, again, atSecond, aliased, same⟩
    obtain ⟨passed', atFirst', leads⟩ := exists_way_between before atSecond
    cases atFirst.symm.trans atFirst'
    exact ⟨passed, again, exists_stationAt_iff.mp ⟨first, atFirst⟩, leads, aliased, same⟩
  · rintro ⟨passed, again, leads, onward, aliased, same⟩
    obtain ⟨first, atFirst⟩ := exists_stationAt_iff.mpr leads
    obtain ⟨further, onward'⟩ := exists_stationAt_succ_iff.mpr onward
    refine ⟨first, first + (further + 1), passed.name, Nat.lt_add_of_pos_right (Nat.succ_pos _),
      ⟨passed, atFirst, aliasOf?_ne_none_of_transGen onward, rfl⟩, again, ?_, aliased, same⟩
    rw [stationAt_add, atFirst, Option.bind_some, onward']

theorem lacksType_iff : LacksType aliases descriptor ↔
    ∃ last, Relation.ReflTransGen (Follows aliases) descriptor last ∧
      aliasOf? aliases last = some none := by
  simp only [LacksType, ← exists_stationAt_iff]
  constructor
  · rintro ⟨steps, last, reached, missing⟩
    exact ⟨last, ⟨steps, reached⟩, missing⟩
  · rintro ⟨last, ⟨steps, reached⟩, missing⟩
    exact ⟨steps, last, reached, missing⟩

theorem endsAt_iff : EndsAt aliases descriptor resolved ↔
    Relation.ReflTransGen (Follows aliases) descriptor resolved ∧
      aliasOf? aliases resolved = none := by
  rw [← exists_stationAt_iff]
  constructor
  · rintro ⟨steps, reached, unaliased, _⟩
    exact ⟨⟨steps, reached⟩, unaliased⟩
  · rintro ⟨⟨steps, reached⟩, unaliased⟩
    refine ⟨steps, reached, unaliased, fun earlier before => ?_⟩
    obtain ⟨passed, atEarlier, leads⟩ := exists_way_between before reached
    exact ⟨passed.name, passed, atEarlier, aliasOf?_ne_none_of_transGen leads, rfl⟩

/-! ## Outcomes -/

/-- Without a result the way comes to an alias that was passed, or comes to one twice, or comes to
one without a type. -/
theorem cases_of_resolveFrom_eq_none {passed : List String}
    (nothing : resolveFrom aliases passed descriptor = none) :
    (∃ last, Relation.ReflTransGen (Follows aliases) descriptor last ∧
      aliasOf? aliases last ≠ none ∧ last.name ∈ passed) ∨
    Revisits aliases descriptor ∨ LacksType aliases descriptor := by
  rw [revisits_iff, lacksType_iff]
  fun_induction resolveFrom aliases passed descriptor with
  | case1 => cases nothing
  | case2 passed descriptor target aliased seen =>
      exact .inl ⟨descriptor, .refl, by simp [aliased], seen⟩
  | case3 passed descriptor fresh aliased fewer =>
      exact .inr (.inr ⟨descriptor, .refl, aliased⟩)
  | case4 passed descriptor fresh next aliased fewer _ induction =>
      have follows : Follows aliases descriptor next := aliased
      rcases induction nothing with ⟨last, leads, aliasedLast, seen⟩ | revisits | lacks
      · rcases List.mem_cons.mp seen with same | seen
        · exact .inr (.inl ⟨descriptor, last, .refl, .head' follows leads, aliasedLast, same⟩)
        · exact .inl ⟨last, .head follows leads, aliasedLast, seen⟩
      · obtain ⟨first, again, leads, onward, aliasedAgain, same⟩ := revisits
        exact .inr (.inl ⟨first, again, .head follows leads, onward, aliasedAgain, same⟩)
      · obtain ⟨last, leads, missing⟩ := lacks
        exact .inr (.inr ⟨last, .head follows leads, missing⟩)

theorem resolve_of_leads (leads : Relation.ReflTransGen (Follows aliases) descriptor last) :
    resolve aliases descriptor = resolve aliases last := by
  induction leads with
  | refl => rfl
  | tail _ follows induction => exact induction.trans (resolve_of_follows follows)

theorem resolve_of_lacksType (lacks : LacksType aliases descriptor) :
    resolve aliases descriptor = none := by
  obtain ⟨last, leads, missing⟩ := lacksType_iff.mp lacks
  rw [resolve_of_leads leads, resolve_of_missing missing]

theorem resolve_of_revisits (revisits : Revisits aliases descriptor) :
    resolve aliases descriptor = none := by
  obtain ⟨passed, again, leads, onward, aliased, same⟩ := revisits_iff.mp revisits
  obtain ⟨next, follows, before⟩ := Relation.TransGen.head'_iff.mp onward
  rw [resolve_of_leads leads, resolve_of_follows follows, Option.eq_none_iff_forall_ne_some]
  intro resolved found
  obtain ⟨onward', unaliased⟩ := resolve_eq_some_iff.mp found
  exact name_ne_of_follows follows onward' unaliased before aliased same

theorem resolve_eq_none_iff : resolve aliases descriptor = none ↔
    Revisits aliases descriptor ∨ LacksType aliases descriptor := by
  constructor
  · intro nothing
    rcases cases_of_resolveFrom_eq_none nothing with ⟨_, _, _, seen⟩ | found
    · cases seen
    · exact found
  · rintro (revisits | lacks)
    · exact resolve_of_revisits revisits
    · exact resolve_of_lacksType lacks

/-- Resolving ends, whatever ways aliases lead.  It finds nothing exactly if the way from a
descriptor comes to an alias a second time or to an alias without a type; otherwise it finds the
first descriptor on the way that refers to no alias. -/
theorem resolve_exact (aliases : AliasTable) (descriptor : Descriptor) :
    Search.run aliases (aliases.keys.length + 1) ⟨[], some descriptor⟩ =
        some (resolve aliases descriptor) ∧
      (resolve aliases descriptor = none ↔
        Revisits aliases descriptor ∨ LacksType aliases descriptor) ∧
      ∀ resolved, resolve aliases descriptor = some resolved ↔
        EndsAt aliases descriptor resolved := by
  refine ⟨Search.run_eq_resolveFrom [] ?_, resolve_eq_none_iff, fun resolved => ?_⟩
  · exact Nat.lt_succ_of_le (List.length_filter_le _ _)
  · rw [resolve_eq_some_iff, endsAt_iff]

/-- A way can lead into a cycle that it does not begin in. -/
example :
    let aliases : AliasTable :=
      [("First", some (.ofName .named "Second")), ("Second", some (.ofName .named "Third")),
        ("Third", some (.ofName .named "Second"))]
    resolve aliases (.ofName .named "First") = none ∧
      resolve aliases (.array (.ofName .named "First")) =
        some (.array (.ofName .named "First")) := by
  cbv

end ProtocolCodegen.Proto
