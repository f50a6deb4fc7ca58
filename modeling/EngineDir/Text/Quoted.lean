import EngineDir.Text.Decimal
import EngineDir.Text.Unprintable

/-!
# Quoted text

A quoted text stands between double quotes. The double quote, the backslash and
the common control characters have two-character escapes; every other character
without a visible form is written `\u{…}` with its code point in hexadecimal.

* `Quoted.text`: a text in quotes.
* `Quoted.path`: a path in quotes. There a byte that begins no character is written `\x…`.
-/

namespace EngineDir.Quoted

/-- The escape of one character, or the character itself. -/
def escape (c : Char) : List Char :=
  if c = '"' then ['\\', '"']
  else if c = '\\' then ['\\', '\\']
  else if c = '\n' then ['\\', 'n']
  else if c = '\r' then ['\\', 'r']
  else if c = '\t' then ['\\', 't']
  else if c = '\x00' then ['\\', '0']
  else if Unprintable.covers c.toNat then ['\\', 'u', '\x7b'] ++ Nat.toDigits 16 c.toNat ++ ['\x7d']
  else [c]

/-- A hexadecimal digit in upper case. -/
def upperHex (n : Nat) : Char := (Nat.digitChar n).toUpper

/-- The escape of a byte that begins no character. -/
def escapeByte (b : UInt8) : List Char :=
  ['\\', 'x', upperHex (b.toNat / 16), upperHex (b.toNat % 16)]

/-- A piece of a path as it stands between the quotes. -/
def escapePiece : Utf8.Piece → List Char
  | .char c => escape c
  | .stray b => b.flatMap escapeByte

/-- Puts escaped text between quotes. -/
def enclose (body : List Char) : String := String.ofList ('"' :: body ++ ['"'])

/-- A text in quotes. -/
def text (cs : List Char) : String := enclose (cs.flatMap escape)

/-- A path in quotes. -/
def path (b : Bytes) : String := enclose ((Utf8.pieces b).flatMap escapePiece)

end EngineDir.Quoted
