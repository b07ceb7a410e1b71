import ProtocolCodegen.Json.Basic

/-!
# Paths into a document

A path starts at a named place, such as a section of the document, and descends through keys and
indices.  Reading a path in a document leads to the value it points at.
-/

namespace ProtocolCodegen

/-- A place in a document. -/
inductive Path where
  /-- A named starting place. -/
  | root (name : String)
  /-- The value under a key. -/
  | field (parent : Path) (key : String)
  /-- The value at an index. -/
  | item (parent : Path) (index : Nat)
  deriving DecidableEq, Repr, Inhabited

namespace Path

/-- The written form of a path: keys after points and indices in brackets. -/
def text : Path → String
  | .root name => name
  | .field parent key => parent.text ++ "." ++ key
  | .item parent index => parent.text ++ "[" ++ toString index ++ "]"

/-- The value that a path leads to, whose starting place is a key of the document. -/
def value? (document : Json) : Path → Option Json
  | .root name => document.field? name
  | .field parent key => (parent.value? document).bind (·.field? key)
  | .item parent index => (parent.value? document).bind (·.item? index)

end Path
end ProtocolCodegen
