import Mathlib
import ProtocolCodegen.Proofs.Target.Proto.Resolving

/-!
# Proto: spelling without a bound

A type is spelled from the spellings of the types in it.  The steps are bounded, but the bound is
never what ends a spelling: a result that changes after some number of steps is due to another one
that changes one step earlier, each result changes once, and there are only so many descriptors that
can be met.
-/

namespace ProtocolCodegen.Proto

/-- Where a type is spelled. -/
inductive Position where
  /-- As the whole type of a field. -/
  | field
  /-- Where the type must be single. -/
  | single
  deriving DecidableEq

/-- A spelling of types. -/
abbrev Speller := Position → Descriptor → Except RenderError String

/-- The spelling in a number of steps. -/
def textWithin (aliases : AliasTable) (steps : Nat) : Speller
  | .field => fieldTextWithin aliases steps
  | .single => singleTextWithin aliases steps

/-- The spelling of types. -/
def text (aliases : AliasTable) : Speller
  | .field => fieldText aliases
  | .single => singleText aliases

variable {aliases : AliasTable} {position : Position} {descriptor : Descriptor}

theorem text_eq_textWithin : text aliases position descriptor =
    textWithin aliases (spellingBound aliases descriptor) position descriptor := by
  cases position <;> rfl

/-! ## Spelling from other spellings -/

/-- The ways in which the spelling of a type is made from others. -/
inductive SpelledAs (aliases : AliasTable) (position : Position) (descriptor : Descriptor) :
    (Speller → Except RenderError String) → Prop where
  | plain {result : Except RenderError String} (settled : result ≠ .error .endless) :
      SpelledAs aliases position descriptor fun _ => result
  | present {resolved inner : Descriptor} (found : resolve aliases descriptor = some resolved)
      (optional : resolved.kind = .optional) (first : resolved.arguments.head? = some inner) :
      SpelledAs aliases position descriptor fun spell => spell position inner
  | list {resolved element : Descriptor} (whole : position = .field)
      (found : resolve aliases descriptor = some resolved)
      (array : resolved.kind = .array) (first : resolved.arguments.head? = some element) :
      SpelledAs aliases position descriptor fun spell =>
        return "repeated " ++ (← spell .single element)
  | dictionary {resolved key value : Descriptor} (whole : position = .field)
      (found : resolve aliases descriptor = some resolved)
      (map : resolved.kind = .map) (pair : resolved.arguments = [key, value]) :
      SpelledAs aliases position descriptor fun spell => do
        let key ← spell .field key
        let value ← spell .single value
        return "map<" ++ key ++ ", " ++ value ++ ">"

theorem exists_spelledAs_single (descriptor : Descriptor) :
    ∃ form, SpelledAs aliases .single descriptor form ∧
      ∀ steps, singleTextWithin aliases (steps + 1) descriptor =
        form (textWithin aliases steps) := by
  simp only [singleTextWithin]
  rcases found : resolve aliases descriptor with _ | ⟨kind, name, category, arguments, constant⟩
  · exact ⟨_, .plain (by simp), fun _ => rfl⟩
  · cases kind with
    | optional =>
        cases arguments with
        | nil => exact ⟨_, .plain (by simp), fun _ => rfl⟩
        | cons inner rest => exact ⟨_, .present found rfl rfl, fun _ => rfl⟩
    | _ => exact ⟨_, .plain (by simp), fun _ => rfl⟩

theorem exists_spelledAs_field (descriptor : Descriptor) :
    ∃ form, SpelledAs aliases .field descriptor form ∧
      ∀ steps, fieldTextWithin aliases (steps + 1) descriptor =
        form (textWithin aliases steps) := by
  simp only [fieldTextWithin]
  rcases found : resolve aliases descriptor with _ | ⟨kind, name, category, arguments, constant⟩
  · exact ⟨_, .plain (by simp), fun _ => rfl⟩
  · cases kind with
    | optional =>
        cases arguments with
        | nil => exact ⟨_, .plain (by simp), fun _ => rfl⟩
        | cons inner rest => exact ⟨_, .present found rfl rfl, fun _ => rfl⟩
    | array =>
        cases arguments with
        | nil => exact ⟨_, .plain (by simp), fun _ => rfl⟩
        | cons element rest => exact ⟨_, .list rfl found rfl rfl, fun _ => rfl⟩
    | map =>
        rcases arguments with _ | ⟨key, _ | ⟨value, _ | ⟨third, rest⟩⟩⟩
        · exact ⟨_, .plain (by simp), fun _ => rfl⟩
        · exact ⟨_, .plain (by simp), fun _ => rfl⟩
        · exact ⟨_, .dictionary rfl found rfl rfl, fun _ => rfl⟩
        · exact ⟨_, .plain (by simp), fun _ => rfl⟩
    | _ => exact ⟨_, .plain (by simp), fun _ => rfl⟩

/-- One step spells a type from what the steps before it spelled. -/
theorem exists_spelledAs (aliases : AliasTable) (position : Position) (descriptor : Descriptor) :
    ∃ form, SpelledAs aliases position descriptor form ∧
      ∀ steps, textWithin aliases (steps + 1) position descriptor =
        form (textWithin aliases steps) := by
  cases position with
  | field => exact exists_spelledAs_field descriptor
  | single => exact exists_spelledAs_single descriptor

/-- A descriptor is an argument of what another one stands for. -/
def IsArgument (aliases : AliasTable) (descriptor argument : Descriptor) : Prop :=
  ∃ resolved, resolve aliases descriptor = some resolved ∧ argument ∈ resolved.arguments

namespace SpelledAs

variable {form : Speller → Except RenderError String} {spell spell' : Speller}

theorem congr (spelled : SpelledAs aliases position descriptor form)
    (same : ∀ argument, IsArgument aliases descriptor argument →
      ∀ position, spell' position argument = spell position argument) :
    form spell' = form spell := by
  cases spelled with
  | plain settled => rfl
  | present found optional first => exact same _ ⟨_, found, List.mem_of_head? first⟩ _
  | list whole found array first =>
      simp only [same _ ⟨_, found, List.mem_of_head? first⟩]
  | dictionary whole found map pair =>
      simp only [same _ ⟨_, found, pair ▸ List.mem_cons_self⟩,
        same _ ⟨_, found, pair ▸ List.mem_cons_of_mem _ List.mem_cons_self⟩]

/-- A spelling that has come to its end does not depend on those that have not. -/
theorem eq_of_settled (spelled : SpelledAs aliases position descriptor form)
    (extends_ : ∀ position descriptor, spell position descriptor ≠ .error .endless →
      spell' position descriptor = spell position descriptor)
    (settled : form spell ≠ .error .endless) : form spell' = form spell := by
  cases spelled with
  | plain _ => rfl
  | present found optional first => exact extends_ _ _ settled
  | @list resolved element whole found array first =>
      have settledElement : spell .single element ≠ .error .endless := by
        intro endless
        simp only [endless] at settled
        exact settled rfl
      simp only [extends_ _ _ settledElement]
  | @dictionary resolved key value whole found map pair =>
      have settledKey : spell .field key ≠ .error .endless := by
        intro endless
        simp only [endless] at settled
        exact settled rfl
      simp only [extends_ _ _ settledKey]
      cases spelledKey : spell .field key with
      | error error => rfl
      | ok keyText =>
          have settledValue : spell .single value ≠ .error .endless := by
            intro endless
            simp only [spelledKey, endless] at settled
            exact settled rfl
          simp only [extends_ _ _ settledValue]

end SpelledAs

/-! ## Results do not change once they are found -/

theorem textWithin_succ_of_settled {steps : Nat} {position : Position} {descriptor : Descriptor}
    (settled : textWithin aliases steps position descriptor ≠ .error .endless) :
    textWithin aliases (steps + 1) position descriptor =
      textWithin aliases steps position descriptor := by
  induction steps generalizing position descriptor with
  | zero => cases position <;> exact absurd rfl settled
  | succ steps induction =>
      obtain ⟨form, spelled, step⟩ := exists_spelledAs aliases position descriptor
      rw [step] at settled
      rw [step, step]
      exact spelled.eq_of_settled (fun _ _ => induction) settled

theorem textWithin_of_le {steps more : Nat} (le : steps ≤ more)
    (settled : textWithin aliases steps position descriptor ≠ .error .endless) :
    textWithin aliases more position descriptor =
      textWithin aliases steps position descriptor := by
  induction more, le using Nat.le_induction with
  | base => rfl
  | succ more le induction =>
      rw [textWithin_succ_of_settled (induction ▸ settled), induction]

/-- The result of a spelling changes with one more step than some number. -/
def ChangesAt (aliases : AliasTable) (steps : Nat) (state : Position × Descriptor) : Prop :=
  textWithin aliases (steps + 1) state.1 state.2 ≠ textWithin aliases steps state.1 state.2

theorem ChangesAt.eq {steps steps' : Nat} {state : Position × Descriptor}
    (changes : ChangesAt aliases steps state) (changes' : ChangesAt aliases steps' state) :
    steps = steps' := by
  have before {steps : Nat} (changes : ChangesAt aliases steps state) :
      textWithin aliases steps state.1 state.2 = .error .endless :=
    by_contra fun settled => changes (textWithin_succ_of_settled settled)
  have not_lt {steps steps' : Nat} (changes : ChangesAt aliases steps state)
      (changes' : ChangesAt aliases steps' state) : ¬steps < steps' := by
    intro less
    have settled : textWithin aliases (steps + 1) state.1 state.2 ≠ .error .endless :=
      fun endless => changes (endless.trans (before changes).symm)
    exact settled ((textWithin_of_le less settled).symm.trans (before changes'))
  exact Nat.le_antisymm (Nat.not_lt.mp (not_lt changes' changes))
    (Nat.not_lt.mp (not_lt changes changes'))

/-- A later change is due to an earlier one at an argument. -/
theorem ChangesAt.exists_argument {steps : Nat}
    (changes : ChangesAt aliases (steps + 1) (position, descriptor)) :
    ∃ argument, IsArgument aliases descriptor argument ∧
      ∃ position, ChangesAt aliases steps (position, argument) := by
  by_contra none_changes
  obtain ⟨form, spelled, step⟩ := exists_spelledAs aliases position descriptor
  apply changes
  simp only [step]
  refine spelled.congr fun argument isArgument position => ?_
  by_contra different
  exact none_changes ⟨argument, isArgument, position, different⟩

/-! ## Descriptors that can be met -/

mutual

/-- The descriptors within a descriptor, itself included. -/
def parts : Descriptor → List Descriptor
  | ⟨kind, name, category, arguments, constant⟩ =>
      ⟨kind, name, category, arguments, constant⟩ :: partsOf arguments

/-- The descriptors within descriptors. -/
def partsOf : List Descriptor → List Descriptor
  | [] => []
  | descriptor :: rest => parts descriptor ++ partsOf rest

end

theorem partsOf_eq_flatMap (descriptors : List Descriptor) :
    partsOf descriptors = descriptors.flatMap parts := by
  induction descriptors with
  | nil => rfl
  | cons first rest induction => rw [partsOf, induction, List.flatMap_cons]

theorem parts_eq (descriptor : Descriptor) :
    parts descriptor = descriptor :: descriptor.arguments.flatMap parts := by
  obtain ⟨kind, name, category, arguments, constant⟩ := descriptor
  rw [parts, partsOf_eq_flatMap]

theorem self_mem_parts (descriptor : Descriptor) : descriptor ∈ parts descriptor := by
  rw [parts_eq]
  exact List.mem_cons_self

/-- Induction over descriptors by their arguments. -/
@[elab_as_elim]
theorem argumentInduction {motive : Descriptor → Prop}
    (step : ∀ descriptor : Descriptor, (∀ argument ∈ descriptor.arguments, motive argument) →
      motive descriptor) (descriptor : Descriptor) : motive descriptor := by
  induction bound : size descriptor using Nat.strongRecOn generalizing descriptor with
  | ind bound smaller =>
      exact step descriptor fun argument listed =>
        smaller (size argument) (bound ▸ size_argument_lt listed) argument rfl

theorem length_flatMap_parts {descriptors : List Descriptor}
    (each : ∀ descriptor ∈ descriptors, (parts descriptor).length = size descriptor) :
    (descriptors.flatMap parts).length = sizes descriptors := by
  induction descriptors with
  | nil => rfl
  | cons first rest induction =>
      have lengthRest := induction fun other listed => each other (List.mem_cons_of_mem _ listed)
      rw [List.flatMap_cons, List.length_append, each first List.mem_cons_self, lengthRest, sizes]

theorem length_parts (descriptor : Descriptor) : (parts descriptor).length = size descriptor := by
  induction descriptor using argumentInduction with
  | step descriptor induction =>
      rw [parts_eq, List.length_cons, length_flatMap_parts induction]
      obtain ⟨kind, name, category, arguments, constant⟩ := descriptor
      rw [size]

theorem argument_mem_parts {descriptor inner argument : Descriptor}
    (inside : inner ∈ parts descriptor) (listed : argument ∈ inner.arguments) :
    argument ∈ parts descriptor := by
  induction descriptor using argumentInduction with
  | step descriptor induction =>
      rw [parts_eq] at inside ⊢
      refine List.mem_cons_of_mem _ (List.mem_flatMap.mpr ?_)
      rcases List.mem_cons.mp inside with rfl | deeper
      · exact ⟨argument, listed, self_mem_parts argument⟩
      · obtain ⟨outer, among, inside⟩ := List.mem_flatMap.mp deeper
        exact ⟨outer, among, induction outer among inside⟩

/-- The descriptors that can be met on the ways from a descriptor: those within it and within the
targets of aliases. -/
def reachable (aliases : AliasTable) (descriptor : Descriptor) : List Descriptor :=
  (descriptor :: aliases.filterMap (·.2)).flatMap parts

theorem self_mem_reachable : descriptor ∈ reachable aliases descriptor :=
  List.mem_flatMap.mpr ⟨descriptor, List.mem_cons_self, self_mem_parts descriptor⟩

theorem length_reachable :
    (reachable aliases descriptor).length = size descriptor + sizes (aliases.filterMap (·.2)) :=
  length_flatMap_parts fun descriptor _ => length_parts descriptor

theorem mem_reachable_of_follows {first middle next : Descriptor}
    (met : middle ∈ reachable aliases first)
    (leads : Relation.ReflTransGen (Follows aliases) middle next) :
    next ∈ reachable aliases first := by
  rcases Relation.ReflTransGen.cases_tail_iff _ _ _ |>.mp leads with rfl | ⟨last, _, follows⟩
  · exact met
  · have target := Dictionary.mem_of_get? (kind_of_follows follows).2
    refine List.mem_flatMap.mpr ⟨next, List.mem_cons_of_mem _ ?_, self_mem_parts next⟩
    exact List.mem_filterMap.mpr ⟨_, target, rfl⟩

theorem mem_reachable_of_isArgument {first middle argument : Descriptor}
    (met : middle ∈ reachable aliases first) (isArgument : IsArgument aliases middle argument) :
    argument ∈ reachable aliases first := by
  obtain ⟨resolved, found, listed⟩ := isArgument
  obtain ⟨outer, among, inside⟩ :=
    List.mem_flatMap.mp (mem_reachable_of_follows met (follows_of_resolve found).1)
  exact List.mem_flatMap.mpr ⟨outer, among, argument_mem_parts inside listed⟩

/-! ## The bound is enough -/

theorem ChangesAt.exists_before {steps : Nat} {first : Descriptor}
    (changes : ChangesAt aliases steps (position, descriptor))
    (met : descriptor ∈ reachable aliases first) {earlier : Nat} (le : earlier ≤ steps) :
    ∃ state, state.2 ∈ reachable aliases first ∧ ChangesAt aliases earlier state := by
  induction steps generalizing position descriptor with
  | zero =>
      obtain rfl := Nat.le_zero.mp le
      exact ⟨_, met, changes⟩
  | succ steps induction =>
      rcases Nat.le_succ_iff.mp le with less | rfl
      · obtain ⟨argument, isArgument, position, changes⟩ := changes.exists_argument
        exact induction changes (mem_reachable_of_isArgument met isArgument) less
      · exact ⟨_, met, changes⟩

/-- Results change within as many steps as there are descriptors in two positions. -/
theorem ChangesAt.lt_spellingBound {steps : Nat}
    (changes : ChangesAt aliases steps (position, descriptor)) :
    steps < spellingBound aliases descriptor := by
  let states := (reachable aliases descriptor).flatMap fun met =>
    [(Position.field, met), (Position.single, met)]
  have listed {state : Position × Descriptor} (met : state.2 ∈ reachable aliases descriptor) :
      state ∈ states.toFinset := by
    obtain ⟨position, met'⟩ := state
    refine List.mem_toFinset.mpr (List.mem_flatMap.mpr ⟨met', met, ?_⟩)
    cases position <;> simp
  have each (earlier : Nat) (le : earlier ≤ steps) :
      ∃ state, state.2 ∈ reachable aliases descriptor ∧ ChangesAt aliases earlier state :=
    changes.exists_before self_mem_reachable le
  have : Nonempty (Position × Descriptor) := ⟨(position, descriptor)⟩
  choose! state met changes using each
  have few := Finset.card_le_card_of_injOn (s := Finset.range (steps + 1)) state
    (fun earlier less => listed (met earlier (by simpa [Nat.lt_succ_iff] using less)))
    (fun first less second less' same =>
      (changes first (by simpa [Nat.lt_succ_iff] using less)).eq
        (same ▸ changes second (by simpa [Nat.lt_succ_iff] using less')))
  have length : states.length = 2 * (reachable aliases descriptor).length := by
    simp [states, List.length_flatMap, Nat.mul_comm]
  rw [Finset.card_range] at few
  have distinct := few.trans (List.toFinset_card_le states)
  rw [length, length_reachable] at distinct
  rw [spellingBound]
  omega

/-- With more steps than the bound, the result is the same. -/
theorem textWithin_of_spellingBound_le {steps : Nat}
    (enough : spellingBound aliases descriptor ≤ steps) :
    textWithin aliases steps position descriptor = text aliases position descriptor := by
  rw [text_eq_textWithin]
  induction steps, enough using Nat.le_induction with
  | base => rfl
  | succ steps le induction =>
      rw [← induction]
      by_contra changes
      exact Nat.not_lt.mpr le (ChangesAt.lt_spellingBound changes)

/-- What one step does, the spelling does without a bound. -/
theorem text_eq_of_spelledAs {form : Speller → Except RenderError String}
    (spelled : SpelledAs aliases position descriptor form)
    (step : ∀ steps, textWithin aliases (steps + 1) position descriptor =
      form (textWithin aliases steps)) :
    text aliases position descriptor = form (text aliases) := by
  have bounds : ∃ steps, spellingBound aliases descriptor ≤ steps ∧
      ∀ argument, IsArgument aliases descriptor argument →
        spellingBound aliases argument ≤ steps := by
    cases found : resolve aliases descriptor with
    | none =>
        refine ⟨_, le_refl _, ?_⟩
        rintro argument ⟨resolved, found', listed⟩
        rw [found] at found'
        cases found'
    | some resolved =>
        refine ⟨spellingBound aliases descriptor + spellingBound aliases resolved,
          Nat.le_add_right _ _, ?_⟩
        rintro argument ⟨resolved', found', listed⟩
        obtain rfl : resolved = resolved' := Option.some.inj (found.symm.trans found')
        have smaller := size_argument_lt listed
        simp only [spellingBound]
        omega
  obtain ⟨steps, enough, enoughForArguments⟩ := bounds
  rw [← textWithin_of_spellingBound_le (Nat.le_succ_of_le enough), step]
  exact spelled.congr fun argument isArgument position =>
    (textWithin_of_spellingBound_le (enoughForArguments argument isArgument)).symm ▸ rfl

/-- A type is spelled from the spellings of the types in it. -/
theorem exists_spelledAs_text (aliases : AliasTable) (position : Position)
    (descriptor : Descriptor) :
    ∃ form, SpelledAs aliases position descriptor form ∧
      text aliases position descriptor = form (text aliases) := by
  obtain ⟨form, spelled, step⟩ := exists_spelledAs aliases position descriptor
  exact ⟨form, spelled, text_eq_of_spelledAs spelled step⟩

/-- The spelling of a type only depends on what it stands for. -/
theorem text_eq_of_resolve_eq (position : Position) {other : Descriptor}
    (same : resolve aliases descriptor = resolve aliases other) :
    text aliases position descriptor = text aliases position other := by
  let steps := spellingBound aliases descriptor + spellingBound aliases other
  have equal : textWithin aliases (steps + 1) position descriptor =
      textWithin aliases (steps + 1) position other := by
    cases position with
    | field => simp only [textWithin, fieldTextWithin, same]
    | single => simp only [textWithin, singleTextWithin, same]
  rwa [textWithin_of_spellingBound_le (by omega), textWithin_of_spellingBound_le (by omega)]
    at equal

end ProtocolCodegen.Proto
