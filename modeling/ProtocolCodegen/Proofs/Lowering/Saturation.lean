import ProtocolCodegen.Proofs.Lowering.Registration

/-!
# Saturated tables

A type that is lowered a second time takes other ways than the first time, since a union whose name
is defined is skipped with all that is inside it.  A table is saturated for a type when every name
that is asked for on these ways is defined.  Lowering a type saturates its table, a table stays
saturated when it grows, and in a saturated table lowering registers nothing.
-/

namespace ProtocolCodegen

theorem Ledger.defines_of_composites_eq {first second : Ledger}
    (same : first.composites = second.composites) (name : String) :
    first.defines name = second.defines name := by
  rw [defines, defines, same]

namespace Lowerer

variable {lowerer : Lowerer}

/-- The composite names that lowering a type asks for at the type itself. -/
def asked (lowerer : Lowerer) : Node → List String
  | .map _ _ value => ((lowerer.mapWrapping? value).map (·.name)).toList
  | .union _ members =>
      match lowerer.unionShape members with
      | .several different => [lowerer.unionName different]
      | .optional _ | .empty | .single _ => []
  | _ => []

/-- The types with which lowering a type goes on when all names that it asks for are defined. -/
def pursued (lowerer : Lowerer) : Node → List Node
  | .array _ element => [element]
  | .map _ key value => [key, value]
  | .union _ members =>
      match lowerer.unionShape members with
      | .optional member | .single member => [member]
      | .empty | .several _ => []
  | _ => []

/-- All names that lowering a type asks for are defined, there and wherever it goes on. -/
inductive Saturates (lowerer : Lowerer) (ledger : Ledger) : Node → Prop where
  | intro {node : Node} (defined : ∀ name ∈ lowerer.asked node, ledger.defines name = true)
      (inside : ∀ part ∈ lowerer.pursued node, Saturates lowerer ledger part) :
      Saturates lowerer ledger node

theorem Saturates.mono {before after : Ledger} {node : Node}
    (saturates : lowerer.Saturates before node)
    (grown : before.composites <+: after.composites) : lowerer.Saturates after node := by
  induction saturates with
  | intro defined _ induction =>
      exact .intro (fun name asked => Ledger.defines_mono grown (defined name asked)) induction

theorem saturates_of_nothing {ledger : Ledger} {node : Node} (unnamed : lowerer.asked node = [])
    (last : lowerer.pursued node = []) : lowerer.Saturates ledger node := by
  refine .intro ?_ ?_
  · rw [unnamed]
    exact List.forall_mem_nil _
  · rw [last]
    exact List.forall_mem_nil _

/-! ## Lowering saturates -/

theorem saturates_enroll_map {source : Path} {key value : Node}
    (saturatesKey : ∀ ledger, lowerer.Saturates (lowerer.enroll key ledger) key)
    (saturatesValue : ∀ ledger, lowerer.Saturates (lowerer.enroll value ledger) value)
    (ledger : Ledger) :
    lowerer.Saturates (lowerer.enroll (.map source key value) ledger) (.map source key value) := by
  have grown : (lowerer.enroll key ledger).composites <+:
      (lowerer.enroll value (lowerer.enroll key ledger)).composites :=
    (lowerer.enrolls_self value _).1.composites_grow
  rw [enroll]
  cases wrapping : lowerer.mapWrapping? value with
  | none =>
      refine .intro (by simp [asked, wrapping]) fun part listed => ?_
      rcases List.mem_pair.mp listed with rfl | rfl
      · exact (saturatesKey ledger).mono grown
      · exact saturatesValue _
  | some record =>
      rw [Ledger.registerWrapping]
      have further := Ledger.composites_register_grow record.name
        (.wrapper record.name record.field (lowerer.descriptor value))
        (lowerer.enroll value (lowerer.enroll key ledger))
      refine .intro (fun name listed => ?_) fun part listed => ?_
      · obtain rfl : name = record.name := by simpa [asked, wrapping] using listed
        exact Ledger.defines_register _ _ _
      · rcases List.mem_pair.mp listed with rfl | rfl
        · exact (saturatesKey ledger).mono (grown.trans further)
        · exact (saturatesValue _).mono further

theorem saturates_enroll_union {source : Path} {members : List Node}
    (saturates : ∀ member ∈ members, ∀ ledger,
      lowerer.Saturates (lowerer.enroll member ledger) member)
    (ledger : Ledger) :
    lowerer.Saturates (lowerer.enroll (.union source members) ledger) (.union source members) := by
  have only {member : Node} {after : Ledger} (unnamed : lowerer.asked (.union source members) = [])
      (single : lowerer.pursued (.union source members) = [member])
      (inside : lowerer.Saturates after member) :
      lowerer.Saturates after (.union source members) := by
    refine .intro (by simp [unnamed]) fun part listed => ?_
    rw [single] at listed
    obtain rfl := List.mem_singleton.mp listed
    exact inside
  have entered {member : Node} (listed : member ∈ (lowerer.unionShape members).members) :
      lowerer.Saturates (lowerer.enroll member ledger) member :=
    saturates member (mem_of_mem_unionShape lowerer listed) ledger
  rw [enroll_union]
  cases shape : lowerer.unionShape members with
  | optional member =>
      exact only (by rw [asked, shape]) (by rw [pursued, shape])
        (entered (by rw [shape]; exact List.mem_cons_self))
  | single member =>
      exact only (by rw [asked, shape]) (by rw [pursued, shape])
        (entered (by rw [shape]; exact List.mem_cons_self))
  | empty => exact saturates_of_nothing (by rw [asked, shape]) (by rw [pursued, shape])
  | several different =>
      refine .intro (fun name listed => ?_) (by simp [pursued, shape])
      obtain rfl : name = lowerer.unionName different := by simpa [asked, shape] using listed
      by_cases known : ledger.defines (lowerer.unionName different) = true
      · simp only [known, if_true]
      · simp only [known, if_false, Bool.false_eq_true]
        exact Ledger.defines_register _ _ _

/-- Once a type was lowered, the table is saturated for it. -/
theorem saturates_enroll (node : Node) (ledger : Ledger) :
    lowerer.Saturates (lowerer.enroll node ledger) node := by
  induction node using Node.induction generalizing ledger with
  | array source element induction =>
      refine .intro (List.forall_mem_nil _) fun part listed => ?_
      obtain rfl := List.mem_singleton.mp listed
      exact induction ledger
  | map source key value inductionKey inductionValue =>
      exact saturates_enroll_map inductionKey inductionValue ledger
  | union source members induction => exact saturates_enroll_union induction ledger
  | _ => exact saturates_of_nothing rfl rfl

/-! ## Lowering in a saturated table -/

/-- In a saturated table lowering registers nothing. -/
theorem Saturates.composites_enroll {ledger : Ledger} {node : Node}
    (saturates : lowerer.Saturates ledger node) {current : Ledger}
    (same : current.composites = ledger.composites) :
    (lowerer.enroll node current).composites = ledger.composites := by
  induction saturates generalizing current with
  | @intro node defined inside induction =>
      cases node with
      | array source element => exact induction element List.mem_cons_self same
      | map source key value =>
          have sameKey := induction key List.mem_cons_self same
          have sameValue := induction value (List.mem_cons_of_mem _ List.mem_cons_self) sameKey
          rw [enroll]
          cases wrapping : lowerer.mapWrapping? value with
          | none => exact sameValue
          | some record =>
              have known := defined record.name (by simp [asked, wrapping])
              rw [← Ledger.defines_of_composites_eq sameValue] at known
              rw [Ledger.registerWrapping, Ledger.register_of_defines _ known]
              exact sameValue
      | union source members =>
          rw [enroll_union]
          cases shape : lowerer.unionShape members with
          | optional member => exact induction member (by simp [pursued, shape]) same
          | single member => exact induction member (by simp [pursued, shape]) same
          | empty => exact same
          | several different =>
              have known := defined (lowerer.unionName different) (by simp [asked, shape])
              rw [← Ledger.defines_of_composites_eq same] at known
              simpa [known] using same
      | base source name =>
          rw [enroll]
          split <;> exact same
      | reference | literal | constant | intersection | tuple => exact same

/-- A type that was lowered before, in whatever table and whatever was registered since, is lowered
without any registration. -/
theorem composites_enrollOf_again (node : Option Node) {before later : Ledger}
    (grown : (lowerer.enrollOf node before).composites <+: later.composites) :
    (lowerer.enrollOf node later).composites = later.composites := by
  cases node with
  | none => rfl
  | some node => exact ((saturates_enroll node before).mono grown).composites_enroll rfl

end Lowerer
end ProtocolCodegen
