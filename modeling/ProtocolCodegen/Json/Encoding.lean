import ProtocolCodegen.Json.Reader

/-!
# Encoded documents

A document given as bytes is in UTF-8, UTF-16 or UTF-32.  A byte order mark decides; without one the
positions of the zero bytes do, since the first two characters of a document are ASCII.
-/

namespace ProtocolCodegen.Json

/-- How the characters of a document are written as bytes. -/
inductive Encoding where
  /-- One to four bytes a character. -/
  | utf8
  /-- Units of two bytes. -/
  | utf16 (bigEndian : Bool)
  /-- Units of four bytes. -/
  | utf32 (bigEndian : Bool)
  deriving DecidableEq, Repr

namespace Encoding

/-- The encoding that a byte order mark names, and the bytes after the mark. -/
def ofMark? : List UInt8 → Option (Encoding × List UInt8)
  | 0x00 :: 0x00 :: 0xFE :: 0xFF :: rest => some (.utf32 true, rest)
  | 0xFF :: 0xFE :: 0x00 :: 0x00 :: rest => some (.utf32 false, rest)
  | 0xFE :: 0xFF :: rest => some (.utf16 true, rest)
  | 0xFF :: 0xFE :: rest => some (.utf16 false, rest)
  | 0xEF :: 0xBB :: 0xBF :: rest => some (.utf8, rest)
  | _ => none

/-- The encoding that the zero bytes at the front of a document without mark tell. -/
def ofZeros : List UInt8 → Encoding
  | a :: b :: c :: d :: _ =>
      if a = 0 then (if b = 0 then .utf32 true else .utf16 true)
      else if b = 0 then (if c = 0 && d = 0 then .utf32 false else .utf16 false)
      else .utf8
  | [a, b] => if a = 0 then .utf16 true else if b = 0 then .utf16 false else .utf8
  | _ => .utf8

/-- The number of a group of bytes. -/
def unitOfBytes (bigEndian : Bool) (bytes : List UInt8) : Nat :=
  (if bigEndian then bytes else bytes.reverse).foldl (fun unit byte => unit * 256 + byte.toNat) 0

/-- The 16-bit units of a list of bytes. -/
def units16? (bigEndian : Bool) : List UInt8 → Option (List Nat)
  | [] => some []
  | a :: b :: rest => (units16? bigEndian rest).map (unitOfBytes bigEndian [a, b] :: ·)
  | _ => none

/-- The 32-bit units of a list of bytes. -/
def units32? (bigEndian : Bool) : List UInt8 → Option (List Nat)
  | [] => some []
  | a :: b :: c :: d :: rest =>
      (units32? bigEndian rest).map (unitOfBytes bigEndian [a, b, c, d] :: ·)
  | _ => none

/-- The character of a code point that is neither a surrogate nor too large. -/
def char? (codePoint : Nat) : Option Char :=
  if valid : codePoint.isValidChar then some (Char.ofNatAux codePoint valid) else none

/-- The characters of 16-bit units, in which surrogates come in pairs. -/
def charsOfUnits16? : List Nat → Option (List Char)
  | [] => some []
  | [unit] => (char? unit).map ([·])
  | unit :: low :: rest =>
      if 0xD800 ≤ unit && unit ≤ 0xDBFF then
        if 0xDC00 ≤ low && low ≤ 0xDFFF then do
          let c ← char? (0x10000 + (unit - 0xD800) * 0x400 + (low - 0xDC00))
          (charsOfUnits16? rest).map (c :: ·)
        else
          none
      else do
        let c ← char? unit
        (charsOfUnits16? (low :: rest)).map (c :: ·)

/-- The characters of bytes in an encoding. -/
def decode? (encoding : Encoding) (bytes : List UInt8) : Option (List Char) :=
  match encoding with
  | .utf8 => (String.fromUTF8? ⟨bytes.toArray⟩).map String.toList
  | .utf16 bigEndian => (units16? bigEndian bytes).bind charsOfUnits16?
  | .utf32 bigEndian => (units32? bigEndian bytes).bind (·.mapM char?)

end Encoding

/-- The value of a document given as bytes, if it is well formed. -/
def ofBytes? (bytes : ByteArray) : Option Json := do
  let bytes := bytes.toList
  let (encoding, bytes) := (Encoding.ofMark? bytes).getD (Encoding.ofZeros bytes, bytes)
  ofChars? (← encoding.decode? bytes)

end ProtocolCodegen.Json
