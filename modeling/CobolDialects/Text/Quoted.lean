import CobolDialects.Text.Printable
import CobolDialects.Text.Utf8

/-!
# Quoted texts in messages

A text is quoted so that its end and its characters can be told on one line: quotes, backslashes
and line breaks have short escapes, and a character that does not show by itself is spelled by its
code point. A byte string is quoted piece by piece, and a broken run is spelled byte by byte.
-/

namespace CobolDialects.Quoted

/-- The code point of a character, as `\u\x7b41\x7d` spells it. -/
def codePoint (c : Char) : List Char := ['\\', 'u', '\x7b'] ++ Nat.toDigits 16 c.toNat ++ ['\x7d']

/-- One character inside quotes. -/
def char (c : Char) : List Char :=
  if c = '\x00' then ['\\', '0']
  else if c = '\t' then ['\\', 't']
  else if c = '\r' then ['\\', 'r']
  else if c = '\n' then ['\\', 'n']
  else if c = '"' ∨ c = '\\' then ['\\', c]
  else if isPrintable c then [c]
  else codePoint c

/-- A text in double quotes. -/
def text (s : String) : String := String.ofList ('"' :: s.toList.flatMap char ++ ['"'])

/-- Two upper-case hexadecimal digits. -/
def byte (b : UInt8) : List Char :=
  let digit (n : Nat) := Char.toUpper (Nat.digitChar n)
  ['\\', 'x', digit (b.toNat / 16), digit (b.toNat % 16)]

def piece : Utf8.Piece → List Char
  | .char c => char c
  | .broken bytes _ => bytes.flatMap byte

/-- A path in double quotes. -/
def path (bytes : Bytes) : String :=
  String.ofList ('"' :: (Utf8.pieces bytes).flatMap piece ++ ['"'])

example : text "a\"b\\c\n\x00" = "\"a\\\"b\\\\c\\n\\0\"" := by cbv
example : path [0x61, 0xFF, 0x09] = "\"a\\xFF\\t\"" := by cbv

end CobolDialects.Quoted
