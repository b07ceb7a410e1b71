import ProtocolCodegen.Text.Quoted

/-!
# Rendering

Rendering a declaration yields a text, or fails, and beside either the names that the declaration
needs from elsewhere.  Names that were needed before a failure are kept.
-/

namespace ProtocolCodegen

/-- Why an outline cannot be rendered.  The outline of a protocol is well formed, so only its own
constants and cyclic aliases can make it fail; outlines from elsewhere can fail in every way. -/
inductive RenderError where
  /-- A list or optional type has no argument. -/
  | noArgument
  /-- A dictionary type has a number of arguments other than two. -/
  | wrongArity (count : Nat)
  /-- A base type has no category. -/
  | noCategory
  /-- A union has no variants. -/
  | noVariants
  /-- A text is not the numeral of a floating-point number. -/
  | notNumeral (text : String)
  /-- A value is neither a number nor a text. -/
  | notNumeric
  /-- An integer is beyond the floating-point numbers. -/
  | tooLarge
  /-- The spelling of a type has no end, since aliases lead back to themselves. -/
  | endless
  deriving DecidableEq, Repr

/-- What is said of an outline that cannot be rendered. -/
def RenderError.message : RenderError → String
  | .noArgument => "a type has no argument"
  | .wrongArity count =>
      if count < 2 then
        "not enough values to unpack (expected 2, got " ++ toString count ++ ")"
      else
        "too many values to unpack (expected 2)"
  | .noCategory => "a scalar has no category"
  | .noVariants => "a union has no variants"
  | .notNumeral text => "could not convert string to float: " ++ Text.quoted text
  | .notNumeric => "a value is not numeric"
  | .tooLarge => "an integer is too large"
  | .endless => "a type is endless"

/-- What rendering yields. -/
structure Rendering (α : Type) where
  /-- Names that have to be imported, in the order in which they were needed. -/
  imports : List String
  /-- The text, or why there is none. -/
  result : Except RenderError α

namespace Rendering

/-- What is rendered without any import. -/
def ofExcept {α : Type} (result : Except RenderError α) : Rendering α :=
  ⟨[], result⟩

/-- Asks for imports. -/
def require (names : List String) : Rendering Unit :=
  ⟨names, .ok ()⟩

instance : Monad Rendering where
  pure value := ⟨[], .ok value⟩
  bind rendering next :=
    match rendering.result with
    | .ok value =>
        let following := next value
        ⟨rendering.imports ++ following.imports, following.result⟩
    | .error error => ⟨rendering.imports, .error error⟩

instance : MonadLift (Except RenderError) Rendering where
  monadLift := ofExcept

instance : LawfulMonad Rendering :=
  LawfulMonad.mk' Rendering
    (by
      rintro α ⟨imports, result⟩
      cases result <;> simp [Functor.map])
    (by
      intro α β value next
      simp [bind, pure])
    (by
      rintro α β γ ⟨imports, result⟩ next last
      cases result with
      | error => simp [bind]
      | ok value =>
          simp only [bind]
          cases (next value).result <;> simp)

end Rendering
end ProtocolCodegen
