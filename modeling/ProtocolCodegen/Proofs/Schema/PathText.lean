import Mathlib
import ProtocolCodegen.Schema.Path

/-!
# Reading written paths

The written form of a path is read from its end, where the last key or index stands.  A path is read
back from its written form if no key has a point or an opening bracket.
-/

namespace ProtocolCodegen

namespace Path

/-- The path whose written form is given in reverse, before what was read already. -/
def before? (read : List Char) : List Char → Option Path
  | [] => some (.root (String.ofList read))
  | '.' :: rest => do return .field (← before? [] rest) (String.ofList read)
  | '[' :: rest => do
      let parent ← before? [] rest
      if read.getLast? = some ']' then
        return .item parent (← (String.ofList read.dropLast).toNat?)
      else
        none
  | char :: rest => before? (char :: read) rest

/-- The path of a written form. -/
def ofText? (text : String) : Option Path :=
  before? [] text.toList.reverse

/-- A text has neither the point before a key nor the bracket before an index. -/
@[simp]
def IsPlainKey (key : List Char) : Prop :=
  '.' ∉ key ∧ '[' ∉ key

/-- No key of a path has a point or an opening bracket. -/
def IsPlain : Path → Prop
  | .root name => IsPlainKey name.toList
  | .field parent key => parent.IsPlain ∧ IsPlainKey key.toList
  | .item parent _ => parent.IsPlain

end Path

end ProtocolCodegen
