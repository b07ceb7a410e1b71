import ProtocolCodegen.Files.FileTree

/-!
# Looking at a tree

A program that only looks at a directory tree leaves it as it is, so its steps can be followed one
by one in one tree.
-/

namespace ProtocolCodegen
namespace FileTree

variable {ε α β : Type} {tree : FileTree}

/-- In a tree a program yields a result, and it leaves the tree as it is. -/
def Yields (tree : FileTree) (program : ExceptT ε (StateM FileTree) α) (result : Except ε α) :
    Prop :=
  program.run.run tree = (result, tree)

/-- In a tree a program yields an error or else a value with a property. -/
def Finds (tree : FileTree) (program : ExceptT ε (StateM FileTree) α) (property : α → Prop) :
    Prop :=
  ∃ result, tree.Yields program result ∧ ∀ value, result = .ok value → property value

section Steps

variable {program : ExceptT ε (StateM FileTree) α} {next : α → ExceptT ε (StateM FileTree) β}

theorem run_bind (program : ExceptT ε (StateM FileTree) α)
    (next : α → ExceptT ε (StateM FileTree) β) (tree : FileTree) :
    (program >>= next).run.run tree =
      (ExceptT.bindCont next (program.run.run tree).1).run (program.run.run tree).2 := rfl

theorem yields_pure (value : α) :
    tree.Yields (pure value : ExceptT ε (StateM FileTree) α) (.ok value) := rfl

theorem yields_lift {step : StateM FileTree α} {value : α}
    (yields : step.run tree = (value, tree)) :
    tree.Yields (ExceptT.lift step : ExceptT ε (StateM FileTree) α) (.ok value) := by
  have lifted : (ExceptT.lift step : ExceptT ε (StateM FileTree) α).run.run tree =
      (.ok (step.run tree).1, (step.run tree).2) := rfl
  rw [Yields, lifted, yields]

theorem Yields.of_eq {result result' : Except ε α} (yields : tree.Yields program result)
    (equal : result = result') : tree.Yields program result' :=
  equal ▸ yields

theorem Yields.bind_ok {value : α} {result : Except ε β} (first : tree.Yields program (.ok value))
    (second : tree.Yields (next value) result) : tree.Yields (program >>= next) result := by
  rw [Yields, run_bind, first]
  exact second

theorem Yields.bind_error {error : ε} (first : tree.Yields program (.error error)) :
    tree.Yields (program >>= next) (.error error) := by
  rw [Yields, run_bind, first]
  rfl

theorem Yields.bind {result : Except ε α} {following : α → Except ε β}
    (first : tree.Yields program result)
    (second : ∀ value, result = .ok value → tree.Yields (next value) (following value)) :
    tree.Yields (program >>= next) (result >>= following) := by
  cases result with
  | error error => exact first.bind_error
  | ok value => exact first.bind_ok (second value rfl)

theorem Yields.finds {result : Except ε α} {property : α → Prop}
    (yields : tree.Yields program result) (holds : ∀ value, result = .ok value → property value) :
    tree.Finds program property :=
  ⟨result, yields, holds⟩

theorem finds_pure {property : α → Prop} {value : α} (holds : property value) :
    tree.Finds (pure value : ExceptT ε (StateM FileTree) α) property :=
  (yields_pure value).finds fun _ same => Except.ok.inj same ▸ holds

theorem finds_throw (property : α → Prop) (error : ε) :
    tree.Finds (throw error : ExceptT ε (StateM FileTree) α) property := by
  refine ⟨.error error, rfl, fun value same => ?_⟩
  cases same

theorem Yields.finds_bind {value : α} {property : β → Prop}
    (first : tree.Yields program (.ok value)) (second : tree.Finds (next value) property) :
    tree.Finds (program >>= next) property := by
  obtain ⟨result, yields, holds⟩ := second
  exact ⟨result, first.bind_ok yields, holds⟩

theorem Finds.bind {property : α → Prop} {property' : β → Prop}
    (first : tree.Finds program property)
    (second : ∀ value, property value → tree.Finds (next value) property') :
    tree.Finds (program >>= next) property' := by
  obtain ⟨result, yields, holds⟩ := first
  cases result with
  | error error =>
      refine ⟨.error error, yields.bind_error, fun value same => ?_⟩
      cases same
  | ok value => exact yields.finds_bind (second value (holds value rfl))

/-- What a program finds has the further property that the program yields it. -/
theorem Finds.and_yields {property : α → Prop} (finds : tree.Finds program property) :
    tree.Finds program fun value => property value ∧ tree.Yields program (.ok value) := by
  obtain ⟨result, yields, holds⟩ := finds
  exact ⟨result, yields, fun value same => ⟨holds value same, same ▸ yields⟩⟩

end Steps

end FileTree
end ProtocolCodegen
