/-!
# Sets of characters

A set of code points is kept as its boundaries in increasing order: the first boundary opens a
run of members, the next one closes it, and so on.  Membership is the parity of the number of
boundaries at or below a code point.
-/

namespace ProtocolCodegen.Text

/-- A set of code points, given by the boundaries at which membership changes. -/
structure CharSet where
  /-- Boundaries in increasing order, the first of which opens a run of members. -/
  boundaries : List Nat

namespace CharSet

/-- Parity of the number of leading boundaries that are at or below a code point. -/
def isOpen : List Nat → Nat → Bool
  | [], _ => false
  | boundary :: rest, codePoint =>
      if codePoint < boundary then false else !isOpen rest codePoint

/-- Whether a character belongs to the set. -/
def contains (set : CharSet) (c : Char) : Bool :=
  isOpen set.boundaries c.toNat

end CharSet
end ProtocolCodegen.Text
