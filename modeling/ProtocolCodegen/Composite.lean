import ProtocolCodegen.Descriptor
import ProtocolCodegen.Dictionary
import ProtocolCodegen.Event
import ProtocolCodegen.Text.Sorted

/-!
# Composite types

Where a target language lacks a shape, a type is defined for it: a union, or a record around a
collection.  The definitions of a run are kept in a table under their names, and the first
definition of a name stays.  The ledger of a run is that table together with the events so far.
-/

namespace ProtocolCodegen

/-- A member of a union. -/
structure Variant where
  /-- Identifier of the member. -/
  ident : String
  /-- Type of the member. -/
  type : Descriptor
  deriving DecidableEq, Repr, Inhabited

/-- A type that is defined because a target language lacks its shape. -/
inductive Composite where
  /-- One of several types. -/
  | union (name : String) (variants : List Variant)
  /-- A record with one field around a collection. -/
  | wrapper (name field : String) (wrapped : Descriptor)
  deriving DecidableEq, Repr, Inhabited

/-- The name within a definition. -/
def Composite.name : Composite → String
  | .union name _ => name
  | .wrapper name _ _ => name

/-- The composites of a run and its events. -/
structure Ledger where
  /-- Definitions under their names, in the order of registration. -/
  composites : Dictionary String Composite
  /-- Events, latest first. -/
  events : List Event
  deriving Repr, Inhabited

namespace Ledger

/-- The ledger of a run that has not begun. -/
def empty : Ledger := ⟨[], []⟩

/-- Adds an event. -/
def log (event : Event) (ledger : Ledger) : Ledger :=
  { ledger with events := event :: ledger.events }

/-- Whether a name has a definition. -/
def defines (name : String) (ledger : Ledger) : Bool :=
  ledger.composites.hasKey name

/-- Gives a name its definition, unless it has one. -/
def register (name : String) (composite : Composite) (ledger : Ledger) : Ledger :=
  if ledger.defines name then
    ledger
  else
    { composites := ledger.composites ++ [(name, composite)]
      events := .registered name :: ledger.events }

/-- The definitions in the order of their names. -/
def sortedComposites (ledger : Ledger) : List (String × Composite) :=
  Text.sortedBy (·.1) ledger.composites

@[simp]
theorem composites_log (event : Event) (ledger : Ledger) :
    (ledger.log event).composites = ledger.composites := rfl

theorem register_of_defines {name : String} {ledger : Ledger} (composite : Composite)
    (taken : ledger.defines name = true) : ledger.register name composite = ledger := by
  simp [register, taken]

end Ledger
end ProtocolCodegen
