import ProtocolCodegen.Target.Language

/-!
# Sessions

One generator can render several outlines, one after the other.  It collects the names that a file
imports while it renders the declarations, and the beginning of the file is written from what it
collected; so it has to forget the names of the outline before.
-/

namespace ProtocolCodegen

/-- What a generator remembers. -/
structure Session where
  /-- Names to import, in the order in which they were needed. -/
  imports : List String
  /-- The types that aliases stand for. -/
  aliases : Proto.AliasTable

/-- A step of a generator.  What it remembers is kept if the step fails. -/
abbrev SessionM := ExceptT RenderError (StateM Session)

namespace Session

/-- Renders something and remembers the names that it needs. -/
def collect {α : Type} (rendering : Rendering α) : SessionM α := do
  modify fun session => { session with imports := session.imports ++ rendering.imports }
  rendering.result

/-- Forgets all names to import. -/
def forgetImports : SessionM Unit :=
  modify fun session => { session with imports := [] }

/-- The names to import, in order. -/
def sortedImports : SessionM (List String) := do
  return Text.sortedSet (← get).imports

/-- Renders an outline. -/
def render (config : Config) (outline : Outline) : Language → SessionM String
  | .go => do
      forgetImports
      let texts ← collect (Go.declarations config outline)
      return Layout.file (Go.fileStart config outline.comment (← sortedImports)) texts
  | .kotlin => do
      forgetImports
      let texts ← collect (Kotlin.declarations config outline)
      return Layout.file (Kotlin.fileStart config outline.comment (← sortedImports)) texts
  | .proto => do
      modify fun session => { session with aliases := Proto.aliasTable outline }
      collect (Proto.fileText config outline)

/-- Renders outlines one after the other, also behind one that cannot be rendered. -/
def renderAll (config : Config) (language : Language) (outlines : List Outline) :
    StateM Session (List (Except RenderError String)) :=
  outlines.mapM fun outline => (render config outline language).run

end Session
end ProtocolCodegen
