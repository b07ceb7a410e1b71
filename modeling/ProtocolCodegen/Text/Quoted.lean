import ProtocolCodegen.Text.Printable

/-!
# Quoted texts

Two ways of showing a text in quotes.  The readable one keeps every printable character and prefers
single quotes; it serves messages.  The ASCII one writes everything outside ASCII as UTF-16 escapes;
it serves data formats and source code.
-/

namespace ProtocolCodegen.Text

/-- The lower-case hexadecimal digits of a number, with leading zeros up to a width. -/
def hexDigits : Nat → Nat → List Char
  | 0, _ => []
  | width + 1, number =>
      hexDigits width (number / 16) ++ [Nat.digitChar (number % 16)]

/-- One character of a readable quotation. -/
def quotedChar (quote c : Char) : List Char :=
  if c = '\\' || c = quote then ['\\', c]
  else if c = '\n' then ['\\', 'n']
  else if c = '\r' then ['\\', 'r']
  else if c = '\t' then ['\\', 't']
  else if isPrintable c then [c]
  else if c.toNat < 0x100 then '\\' :: 'x' :: hexDigits 2 c.toNat
  else if c.toNat < 0x10000 then '\\' :: 'u' :: hexDigits 4 c.toNat
  else '\\' :: 'U' :: hexDigits 8 c.toNat

/-- The quote of a readable quotation: single, unless the text has single quotes only. -/
def quoteFor (text : List Char) : Char :=
  if text.contains '\'' && !text.contains '"' then '"' else '\''

/-- A readable quotation of a text. -/
def quoted (text : String) : String :=
  let quote := quoteFor text.toList
  String.ofList (quote :: text.toList.flatMap (quotedChar quote) ++ [quote])

/-- A UTF-16 escape. -/
def unitEscape (unit : Nat) : List Char :=
  '\\' :: 'u' :: hexDigits 4 unit

/-- One character of an ASCII quotation. -/
def asciiQuotedChar (c : Char) : List Char :=
  if c = '"' || c = '\\' then ['\\', c]
  else if c = '\n' then ['\\', 'n']
  else if c = '\r' then ['\\', 'r']
  else if c = '\t' then ['\\', 't']
  else if c = '\x08' then ['\\', 'b']
  else if c = '\x0c' then ['\\', 'f']
  else if 0x20 ≤ c.toNat && c.toNat < 0x7F then [c]
  else if c.toNat < 0x10000 then unitEscape c.toNat
  else
    let offset := c.toNat - 0x10000
    unitEscape (0xD800 + offset / 0x400) ++ unitEscape (0xDC00 + offset % 0x400)

/-- The characters of an ASCII quotation in double quotes. -/
def asciiQuotedChars (text : List Char) : List Char :=
  '"' :: text.flatMap asciiQuotedChar ++ ['"']

/-- An ASCII quotation of a text in double quotes. -/
def asciiQuoted (text : String) : String :=
  String.ofList (asciiQuotedChars text.toList)

end ProtocolCodegen.Text
