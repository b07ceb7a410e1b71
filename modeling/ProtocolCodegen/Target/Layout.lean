import ProtocolCodegen.Text.Blank
import ProtocolCodegen.Text.Lines

/-!
# Layout of a file

A generated file begins with comment lines that say how it was generated, and its declarations are
set apart by blank lines.
-/

namespace ProtocolCodegen.Layout

/-- A line comment, without the blanks at its end. -/
def lineComment (indent line : String) : String :=
  Text.trimEnd (indent ++ "// " ++ line)

/-- The lines of a text as line comments; an empty text has none. -/
def commentLines (documentation indent : String) : List String :=
  if documentation = "" then []
  else (Text.lines documentation).map (lineComment indent)

/-- The comment lines that a file begins with, and a blank line after them. -/
def header (comment : List String) : String :=
  Text.unlines (comment.map (lineComment "")) ++ if comment.isEmpty then "" else "\n"

/-- A declaration that ends with one line feed. -/
def declaration (text : String) : String :=
  Text.trimLineFeeds text ++ "\n"

/-- A file of a beginning and declarations, each with a blank line after it but the last. -/
def file (start : String) (declarations : List String) : String :=
  Text.trimLineFeeds (start ++ Text.unlines (declarations.map declaration)) ++ "\n"

/-- Whether a documentation lacks a note on the version that introduced a declaration. -/
def lacksSince (documentation since : String) : Bool :=
  since != "" && !Text.occursIn ("@since " ++ since).toList documentation.toList

/-- Lines with a paragraph added, which a blank line sets apart. -/
def addParagraph (lines : List String) (paragraph : String) : List String :=
  (if lines.isEmpty then [] else lines ++ [""]) ++ [paragraph]

/-- The lines of a documentation with paragraphs on the version that introduced the declaration and
on why it should not be used. -/
def docParagraphs (deprecatedMark documentation since deprecated : String) : List String :=
  let lines := if documentation = "" then [] else Text.lines documentation
  let lines :=
    if lacksSince documentation since then addParagraph lines ("@since " ++ since) else lines
  if deprecated = "" then lines else addParagraph lines (deprecatedMark ++ deprecated)

end ProtocolCodegen.Layout
