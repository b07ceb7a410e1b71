import Mathlib
import ProtocolCodegen.Proofs.Outline.BuiltTypes
import ProtocolCodegen.Target.Go.Text
import ProtocolCodegen.Target.Kotlin.Union

/-!
# Renderable types

Descriptors are flat records, so one can have too few arguments for its kind or lack a category, and
then it has no spelling.  Those that lowering builds are well formed, in whatever part of an outline
they stand, and every well-formed type can be written in Go and in Kotlin.
-/

namespace ProtocolCodegen

/-- How many types a type of a kind is made of. -/
def TypeKind.arity : TypeKind → Nat
  | .array | .optional => 1
  | .map => 2
  | .scalar | .named | .union | .wrapper | .any => 0

namespace Descriptor

/-- A descriptor with as many arguments as its kind asks for, and with a category if it is a base
type. -/
structure Fits (descriptor : Descriptor) : Prop where
  arity : descriptor.arguments.length = descriptor.kind.arity
  category : descriptor.kind = .scalar → ∃ category, descriptor.category = some category

/-- A descriptor that fits, and all in it do. -/
inductive IsWellFormed : Descriptor → Prop where
  | intro {descriptor : Descriptor} (fits : descriptor.Fits)
      (inside : ∀ argument ∈ descriptor.arguments, IsWellFormed argument) :
      IsWellFormed descriptor

theorem IsWellFormed.fits {descriptor : Descriptor} (wellFormed : descriptor.IsWellFormed) :
    descriptor.Fits := by
  cases wellFormed
  assumption

/-- Induction over well-formed descriptors, by the number of their arguments. -/
@[elab_as_elim]
theorem IsWellFormed.induction {motive : Descriptor → Prop}
    (plain : ∀ descriptor : Descriptor, descriptor.Fits → descriptor.kind.arity = 0 →
      motive descriptor)
    (array : ∀ name category element constant, motive element →
      motive ⟨.array, name, category, [element], constant⟩)
    (optional : ∀ name category inner constant, motive inner →
      motive ⟨.optional, name, category, [inner], constant⟩)
    (map : ∀ name category key value constant, motive key → motive value →
      motive ⟨.map, name, category, [key, value], constant⟩)
    {descriptor : Descriptor} (wellFormed : descriptor.IsWellFormed) : motive descriptor := by
  induction wellFormed with
  | @intro descriptor fits _ inside =>
      obtain ⟨kind, name, category, arguments, constant⟩ := descriptor
      cases kind with
      | array =>
          obtain ⟨element, rfl⟩ := List.length_eq_one_iff.mp fits.arity
          exact array name category element constant (inside element List.mem_cons_self)
      | optional =>
          obtain ⟨inner, rfl⟩ := List.length_eq_one_iff.mp fits.arity
          exact optional name category inner constant (inside inner List.mem_cons_self)
      | map =>
          obtain ⟨key, value, rfl⟩ := List.length_eq_two.mp fits.arity
          exact map name category key value constant (inside key List.mem_cons_self)
            (inside value (List.mem_cons_of_mem _ List.mem_cons_self))
      | scalar | named | union | wrapper | any => exact plain _ fits rfl

end Descriptor

theorem Lowerer.Builds.isWellFormed {lowerer : Lowerer} {descriptor : Descriptor}
    (built : lowerer.Builds descriptor) : descriptor.IsWellFormed := by
  induction built with
  | scalar category => exact .intro ⟨rfl, fun _ => ⟨category, rfl⟩⟩ (List.forall_mem_nil _)
  | constant value => exact .intro ⟨rfl, fun _ => ⟨.string, rfl⟩⟩ (List.forall_mem_nil _)
  | anything | named | union | wrapper => exact .intro ⟨rfl, nofun⟩ (List.forall_mem_nil _)
  | array _ wellFormed | optional _ wellFormed =>
      refine .intro ⟨rfl, nofun⟩ fun argument listed => ?_
      obtain rfl := List.mem_singleton.mp listed
      exact wellFormed
  | @map key value _ _ wellFormedKey wellFormedValue =>
      refine .intro ⟨rfl, nofun⟩ fun argument listed => ?_
      rcases List.mem_pair.mp listed with rfl | rfl
      · rw [Lowerer.mapKey]
        split
        · exact .intro ⟨rfl, fun _ => ⟨.string, rfl⟩⟩ (List.forall_mem_nil _)
        · exact wellFormedKey
      · exact wellFormedValue

theorem Outline.IsAnalyzed.isWellFormed {outline : Outline} (analyzed : outline.IsAnalyzed)
    {type : Descriptor} (stands : outline.HasType type) : type.IsWellFormed := by
  obtain ⟨lowerer, built⟩ := analyzed.exists_builds stands.contains
  exact built.isWellFormed

theorem Analyzer.isWellFormed_of_hasType {analyzer : Analyzer} {includesMethods : Bool}
    {events : List Event} {type : Descriptor}
    (stands : (analyzer.analyze includesMethods ⟨[], events⟩).1.HasType type) :
    type.IsWellFormed :=
  (Outline.isAnalyzed_analyze analyzer includesMethods events).isWellFormed stands

/-! ## Spelling -/

theorem Go.exists_typeText_eq_ok {descriptor : Descriptor}
    (wellFormed : descriptor.IsWellFormed) : ∃ text, Go.typeText descriptor = .ok text := by
  refine wellFormed.induction ?plain ?array ?optional ?map
  case plain =>
    rintro ⟨kind, name, category, arguments, constant⟩ fits none
    cases kind with
    | array | optional | map => cases none
    | scalar | named | union | wrapper | any => exact ⟨_, rfl⟩
  case array | optional =>
    rintro name category inner constant ⟨text, spelled⟩
    rw [Go.typeText, spelled]
    exact ⟨_, rfl⟩
  case map =>
    rintro name category key value constant ⟨keyText, spelledKey⟩ ⟨valueText, spelledValue⟩
    rw [Go.typeText, spelledKey, spelledValue]
    exact ⟨_, rfl⟩

namespace Kotlin

theorem exists_typeText_eq_ok {descriptor : Descriptor} (wellFormed : descriptor.IsWellFormed) :
    ∃ text, typeText descriptor = .ok text := by
  refine wellFormed.induction ?plain ?array ?optional ?map
  case plain =>
    rintro ⟨kind, name, category, arguments, constant⟩ fits none
    cases kind with
    | array | optional | map => cases none
    | scalar | named | union | wrapper | any => exact ⟨_, rfl⟩
  case array | optional =>
    rintro name category inner constant ⟨text, spelled⟩
    rw [typeText, spelled]
    exact ⟨_, rfl⟩
  case map =>
    rintro name category key value constant ⟨keyText, spelledKey⟩ ⟨valueText, spelledValue⟩
    rw [typeText, spelledKey, spelledValue]
    exact ⟨_, rfl⟩

theorem exists_jsonShape_eq_ok {descriptor : Descriptor} (wellFormed : descriptor.IsWellFormed) :
    ∃ shape, jsonShape descriptor = .ok shape := by
  refine wellFormed.induction ?plain ?array ?optional ?map
  case plain =>
    rintro ⟨kind, name, category, arguments, constant⟩ fits none
    cases kind with
    | array | optional | map => cases none
    | scalar =>
        obtain ⟨category, rfl⟩ := fits.category rfl
        exact ⟨_, rfl⟩
    | named | union | wrapper | any => exact ⟨_, rfl⟩
  case optional =>
    intro name category inner constant shaped
    rwa [jsonShape]
  case array => exact fun _ _ _ _ _ => ⟨_, rfl⟩
  case map => exact fun _ _ _ _ _ _ _ => ⟨_, rfl⟩

theorem exists_innerCategory_eq_ok {descriptor : Descriptor}
    (wellFormed : descriptor.IsWellFormed) :
    ∃ category, innerCategory descriptor = .ok category := by
  refine wellFormed.induction ?plain ?array ?optional ?map
  case plain =>
    rintro ⟨kind, name, category, arguments, constant⟩ fits none
    cases kind with
    | array | optional | map => cases none
    | scalar | named | union | wrapper | any => exact ⟨_, rfl⟩
  case optional =>
    intro name category inner constant found
    rwa [innerCategory]
  case array => exact fun _ _ _ _ _ => ⟨_, rfl⟩
  case map => exact fun _ _ _ _ _ _ _ => ⟨_, rfl⟩

theorem exists_primitiveTest_eq_ok {descriptor : Descriptor}
    (wellFormed : descriptor.IsWellFormed) :
    ∃ test, (primitiveTest descriptor).result = .ok test := by
  obtain ⟨category, found⟩ := exists_innerCategory_eq_ok wellFormed
  rw [primitiveTest, found]
  cases category with
  | none => exact ⟨_, rfl⟩
  | some category => cases category <;> exact ⟨_, rfl⟩

end Kotlin

/-- Whatever calls share a ledger, every type in an outline that one of them returns has as many
arguments as its kind asks for and a category if it is a base type, so it has a Go type, a Kotlin
type, a shape of its values and a test of primitives. -/
theorem LedgerCall.performAll_renderable (calls : List LedgerCall) (events : List Event)
    (outline : Outline) (answered : .outline outline ∈ ((performAll calls).run ⟨[], events⟩).1)
    (descriptor : Descriptor) (contains : outline.Contains descriptor) :
    descriptor.Fits ∧ (∃ text, Go.typeText descriptor = .ok text) ∧
      (∃ text, Kotlin.typeText descriptor = .ok text) ∧
      (∃ shape, Kotlin.jsonShape descriptor = .ok shape) ∧
      ∃ test, (Kotlin.primitiveTest descriptor).result = .ok test := by
  obtain ⟨lowerer, built⟩ := exists_builds_of_contains answered contains
  have wellFormed := built.isWellFormed
  exact ⟨wellFormed.fits, Go.exists_typeText_eq_ok wellFormed,
    Kotlin.exists_typeText_eq_ok wellFormed, Kotlin.exists_jsonShape_eq_ok wellFormed,
    Kotlin.exists_primitiveTest_eq_ok wellFormed⟩

/-- A dictionary of lists of what can be absent. -/
theorem LedgerCall.performAll_renderable_nested :
    let page : Node := .reference (.root "page") "Page"
    let element : Node := .union (.root "element") [page, .base (.root "none") "null"]
    let pages : Node :=
      .map (.root "type") (.base (.root "key") "string") (.array (.root "value") element)
    let declared : TypeAlias := { (default : TypeAlias) with name := "Pages", type := some pages }
    let model : Model := { (default : Model) with aliases := [declared] }
    let calls : List LedgerCall := [.analyze (.ofModel model Go.profile false none) true]
    let descriptor : Descriptor :=
      .map (.scalar .string "string") (.array (.optional (.ofName .named "Page")))
    ∃ outline, .outline outline ∈ ((performAll calls).run ⟨[], []⟩).1 ∧
      outline.Contains descriptor ∧ descriptor.Fits ∧
      (∃ text, Go.typeText descriptor = .ok text) ∧
      (∃ text, Kotlin.typeText descriptor = .ok text) ∧
      (∃ shape, Kotlin.jsonShape descriptor = .ok shape) ∧
      ∃ test, (Kotlin.primitiveTest descriptor).result = .ok test := by
  intro page element pages declared model calls descriptor
  let analyzer : Analyzer := .ofModel model Go.profile false none
  let outline := (analyzer.analyze true ⟨[], []⟩).1
  have answered : .outline outline ∈ ((performAll calls).run ⟨[], []⟩).1 := List.mem_cons_self
  have target : (analyzer.aliasOf declared).target = some descriptor := by cbv
  have generated : analyzer.aliases = [declared] := by cbv
  have listed : analyzer.aliasOf declared ∈ outline.aliases :=
    List.mem_map_of_mem (generated ▸ List.mem_cons_self)
  have contains : outline.Contains descriptor := ⟨descriptor, .target listed target, .self⟩
  exact ⟨outline, answered, contains,
    performAll_renderable calls [] outline answered descriptor contains⟩

end ProtocolCodegen
