import Mathlib
import ProtocolCodegen.Target.Session

/-!
# Sequences of outlines

What a generator remembers of earlier outlines does not show: each outline is rendered as by a new
generator, also behind one that could not be rendered.
-/

namespace ProtocolCodegen.Session

/-- A step has the result of a new generator, and leaves the imports that it needed itself. -/
theorem run_render (config : Config) (outline : Outline) (language : Language)
    (session : Session) :
    let (result, after) := (render config outline language).run.run session
    result = (language.fileText config outline).result ∧
      (language ≠ .proto → after.imports = (language.fileText config outline).imports) := by
  cases language with
  | go =>
      simp only [render, Language.fileText, Go.fileText]
      generalize Go.declarations config outline = rendering
      obtain ⟨imports, result⟩ := rendering
      cases result <;> exact ⟨rfl, fun _ => rfl⟩
  | kotlin =>
      simp only [render, Language.fileText, Kotlin.fileText]
      generalize Kotlin.declarations config outline = rendering
      obtain ⟨imports, result⟩ := rendering
      cases result <;> exact ⟨rfl, fun _ => rfl⟩
  | proto =>
      simp only [render, Language.fileText]
      generalize Proto.fileText config outline = rendering
      obtain ⟨imports, result⟩ := rendering
      cases result <;> exact ⟨rfl, fun other => absurd rfl other⟩

/-- Outlines that are rendered one after the other are rendered one by one. -/
theorem renderAll_eq (config : Config) (language : Language) (outlines : List Outline)
    (session : Session) :
    ((renderAll config language outlines).run session).1 =
      outlines.map fun outline => (language.fileText config outline).result := by
  induction outlines generalizing session with
  | nil => rfl
  | cons outline rest induction =>
      obtain ⟨step, _⟩ := run_render config outline language session
      rw [renderAll, List.mapM_cons]
      exact congrArg₂ List.cons step (induction _)

end ProtocolCodegen.Session
