import ProtocolCodegen.Proofs.Lowering.Uses

/-!
# History of a ledger

All that a run does to its ledger is to log events and to register definitions.  What holds of every
definition that a run may register therefore holds of every definition in the ledger, and the
definitions that were there stay where they are.
-/

namespace ProtocolCodegen

namespace Dictionary

variable {κ α : Type} [DecidableEq κ]

theorem get?_append (key : κ) (first second : Dictionary κ α) :
    get? key (first ++ second) = (first.get? key).or (second.get? key) := by
  induction first with
  | nil => rfl
  | cons entry rest induction =>
      obtain ⟨other, value⟩ := entry
      by_cases same : other = key
      · simp [get?, same]
      · simpa [get?, same] using induction

theorem get?_of_prefix {key : κ} {value : α} {before after : Dictionary κ α}
    (grown : before <+: after) (found : before.get? key = some value) :
    after.get? key = some value := by
  obtain ⟨added, rfl⟩ := grown
  rw [get?_append, found, Option.some_or]

end Dictionary

namespace Ledger

theorem defines_iff {ledger : Ledger} {name : String} :
    ledger.defines name = true ↔ ∃ composite, ledger.composites.get? name = some composite := by
  rw [defines, Dictionary.hasKey, Option.isSome_iff_exists]

theorem defines_iff_mem_keys {ledger : Ledger} {name : String} :
    ledger.defines name = true ↔ name ∈ ledger.composites.keys :=
  Dictionary.hasKey_iff_mem_keys

theorem composites_register_of_fresh {name : String} {ledger : Ledger} (composite : Composite)
    (fresh : ledger.defines name = false) :
    (ledger.register name composite).composites = ledger.composites ++ [(name, composite)] := by
  simp [register, fresh]

theorem composites_register_grow (name : String) (composite : Composite) (ledger : Ledger) :
    ledger.composites <+: (ledger.register name composite).composites := by
  cases taken : ledger.defines name with
  | true => simp [register_of_defines composite taken]
  | false =>
      rw [composites_register_of_fresh composite taken]
      exact List.prefix_append _ _

theorem defines_register (name : String) (composite : Composite) (ledger : Ledger) :
    (ledger.register name composite).defines name = true := by
  cases taken : ledger.defines name with
  | true => rw [register_of_defines composite taken, taken]
  | false =>
      rw [defines_iff_mem_keys, composites_register_of_fresh composite taken]
      simp [Dictionary.keys]

theorem defines_mono {before after : Ledger} {name : String}
    (grown : before.composites <+: after.composites) (defined : before.defines name = true) :
    after.defines name = true := by
  obtain ⟨composite, found⟩ := defines_iff.mp defined
  exact defines_iff.mpr ⟨composite, Dictionary.get?_of_prefix grown found⟩

/-- What becomes of a ledger when events are logged and permitted definitions are registered, in any
order.  What is permitted can depend on the ledger of the moment. -/
inductive History (permits : Ledger → String → Composite → Prop) (before : Ledger) :
    Ledger → Prop where
  | start : History permits before before
  | log {ledger : Ledger} (event : Event) (history : History permits before ledger) :
      History permits before (ledger.log event)
  | register {ledger : Ledger} {name : String} {composite : Composite}
      (history : History permits before ledger) (permitted : permits ledger name composite) :
      History permits before (ledger.register name composite)

namespace History

variable {permits : Ledger → String → Composite → Prop} {before middle after : Ledger}

theorem trans (first : History permits before middle) (second : History permits middle after) :
    History permits before after := by
  induction second with
  | start => exact first
  | log event _ induction => exact .log event induction
  | register _ permitted induction => exact .register induction permitted

theorem mono {permits' : Ledger → String → Composite → Prop}
    (history : History permits before after)
    (weaker : ∀ ledger name composite, permits ledger name composite →
      permits' ledger name composite) : History permits' before after := by
  induction history with
  | start => exact .start
  | log event _ induction => exact .log event induction
  | register _ permitted induction => exact .register induction (weaker _ _ _ permitted)

theorem composites_grow (history : History permits before after) :
    before.composites <+: after.composites := by
  induction history with
  | start => exact List.prefix_rfl
  | log _ _ induction => exact induction
  | register _ _ induction => exact induction.trans (composites_register_grow _ _ _)

theorem nodup_keys (history : History permits before after)
    (distinct : before.composites.keys.Nodup) : after.composites.keys.Nodup := by
  induction history with
  | start => exact distinct
  | log _ _ induction => exact induction
  | @register ledger name composite _ _ induction =>
      cases taken : ledger.defines name with
      | true => rwa [register_of_defines composite taken]
      | false =>
          have unlisted : name ∉ ledger.composites.keys := by
            rw [← defines_iff_mem_keys, taken]
            exact Bool.false_ne_true
          rw [composites_register_of_fresh composite taken, Dictionary.keys, List.map_append]
          refine List.nodup_append.mpr ⟨induction, by simp, ?_⟩
          intro key listed other new equal
          obtain rfl := List.mem_singleton.mp new
          exact unlisted (equal ▸ listed)

/-- Every definition of the ledger was there before or was permitted at a moment since which the
table has only grown. -/
theorem mem_composites (history : History permits before after) {name : String}
    {composite : Composite} (listed : (name, composite) ∈ after.composites) :
    (name, composite) ∈ before.composites ∨
      ∃ ledger : Ledger, permits ledger name composite ∧
        ledger.composites <+: after.composites := by
  induction history with
  | start => exact .inl listed
  | log _ _ induction => exact induction listed
  | @register ledger key definition _ permitted induction =>
      have grown := composites_register_grow key definition ledger
      have earlier (old : (name, composite) ∈ ledger.composites) :
          (name, composite) ∈ before.composites ∨ ∃ moment : Ledger,
            permits moment name composite ∧
              moment.composites <+: (ledger.register key definition).composites := by
        refine (induction old).imp_right ?_
        rintro ⟨moment, permitted, prior⟩
        exact ⟨moment, permitted, prior.trans grown⟩
      -- A refused registration leaves the table as it is, so only a free name adds an entry.
      cases taken : ledger.defines key with
      | true =>
          exact earlier (by rwa [register_of_defines definition taken] at listed)
      | false =>
          have split := composites_register_of_fresh definition taken ▸ listed
          rcases List.mem_append.mp split with old | new
          · exact earlier old
          · cases List.mem_singleton.mp new
            exact .inr ⟨ledger, permitted, grown⟩

end History
end Ledger
end ProtocolCodegen
