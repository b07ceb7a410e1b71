import ProtocolCodegen.Text.Quoted

/-!
# Events of a run

What happens in the course of a generation and how it is logged: each event has a severity, the name
of the stage that reports it, and a message.
-/

namespace ProtocolCodegen

/-- Why a type becomes the any type. -/
inductive Degradation where
  /-- There is no type. -/
  | missingType
  /-- The base type does not exist. -/
  | unknownBase (name : String)
  /-- No member of the union remains. -/
  | emptyUnion
  /-- The type is an anonymous record. -/
  | literal
  /-- The type is an intersection. -/
  | intersection
  deriving DecidableEq, Repr

/-- What is said of a type that becomes the any type. -/
def Degradation.reason : Degradation → String
  | .missingType => "missing type"
  | .unknownBase name => "unknown base type " ++ Text.quoted name
  | .emptyUnion => "empty union"
  | .literal => "literal type"
  | .intersection => "and type"

/-- Something that happens in the course of a generation. -/
inductive Event where
  /-- A name in a selection is not declared. -/
  | undeclared (name : String)
  /-- A selection was closed under references. -/
  | resolved (requested total : Nat)
  /-- A composite got its definition. -/
  | registered (composite : String)
  /-- A type became the any type. -/
  | degraded (cause : Degradation)
  /-- A record extends a name that is not a record. -/
  | unknownParent (child parent : String)
  /-- A protocol was analyzed. -/
  | analyzed (classes enums aliases methods composites : Nat)
  /-- Files were generated. -/
  | generated (files : List String) (language version : String)
  /-- A file was written. -/
  | wrote (path : String) (size : Nat)
  deriving DecidableEq, Repr

namespace Event

/-- How important an event is. -/
def level : Event → String
  | .analyzed .. | .generated .. | .wrote .. => "INFO"
  | _ => "DEBUG"

/-- The name of the stage that reports an event. -/
def logger : Event → String
  | .undeclared .. | .resolved .. => "metamodel_to_code.pipeline.analyzer.dependency_resolver"
  | .registered .. | .degraded .. => "metamodel_to_code.pipeline.analyzer.lowerer"
  | .unknownParent .. | .analyzed .. => "metamodel_to_code.pipeline.analyzer.analyzer"
  | .generated .. => "metamodel_to_code.pipeline.generator"
  | .wrote .. => "metamodel_to_code.pipeline.writer"

/-- What is said of an event. -/
def message : Event → String
  | .undeclared name => "Type " ++ name ++ " is referenced but not defined in the model"
  | .resolved requested total =>
      "Resolved " ++ toString requested ++ " requested types to " ++ toString total ++ " types"
  | .registered composite => "Registered composite " ++ composite
  | .degraded cause => "Lowering " ++ cause.reason ++ " to the any type"
  | .unknownParent child parent => "Structure " ++ child ++ " extends unknown type " ++ parent
  | .analyzed classes enums aliases methods composites =>
      "Analyzed " ++ toString classes ++ " classes, " ++ toString enums ++ " enums, " ++
        toString aliases ++ " aliases, " ++ toString methods ++ " methods, " ++
        toString composites ++ " composites"
  | .generated files language version =>
      "Generated " ++ String.intercalate ", " files ++ " for " ++ language ++ " (" ++
        (if version = "" then "unversioned" else version) ++ ")"
  | .wrote path size => "Wrote " ++ path ++ " (" ++ toString size ++ " bytes)"

/-- The line of a log. -/
def line (event : Event) : String :=
  event.level ++ " " ++ event.logger ++ ": " ++ event.message ++ "\n"

end Event
end ProtocolCodegen
