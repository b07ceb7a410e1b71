/-!
# Blank characters

The white space of a text: the ASCII blanks, the four separators of information that ASCII has
beside them, and the spaces and line ends of the Unicode standard.  The zero-width space and the
byte order mark are not blank.
-/

namespace ProtocolCodegen.Text

/-- Whether a character is white space. -/
def isBlank (c : Char) : Bool :=
  let codePoint := c.toNat
  (0x09 ≤ codePoint && codePoint ≤ 0x0D) || (0x1C ≤ codePoint && codePoint ≤ 0x20) ||
    codePoint == 0x85 || codePoint == 0xA0 || codePoint == 0x1680 ||
    (0x2000 ≤ codePoint && codePoint ≤ 0x200A) || codePoint == 0x2028 || codePoint == 0x2029 ||
    codePoint == 0x202F || codePoint == 0x205F || codePoint == 0x3000

/-- Whether a character is one of the six ASCII blanks: space, tab and the four line ends. -/
def isAsciiBlank (c : Char) : Bool :=
  c == ' ' || (0x09 ≤ c.toNat && c.toNat ≤ 0x0D)

/-- A list without its longest tail of members that satisfy a test. -/
def dropEndWhile {α : Type} (test : α → Bool) (items : List α) : List α :=
  (items.reverse.dropWhile test).reverse

/-- A text without the blanks at its end. -/
def trimEnd (text : String) : String :=
  String.ofList (dropEndWhile isBlank text.toList)

/-- A text without the blanks at either end. -/
def trim (text : String) : String :=
  String.ofList (dropEndWhile isBlank (text.toList.dropWhile isBlank))

/-- A text without the line feeds at its end. -/
def trimLineFeeds (text : String) : String :=
  String.ofList (dropEndWhile (· == '\n') text.toList)

end ProtocolCodegen.Text
