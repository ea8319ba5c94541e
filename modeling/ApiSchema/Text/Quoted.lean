import ApiSchema.Text.Basic
import ApiSchema.Text.Printable

/-!
Texts in quotes, as messages and the debugging output show them.

Backslash, quote, tab, line feed, carriage return and NUL have an escape of two characters; any
other character that is not printable is written by its code point in hexadecimal digits.
-/

namespace ApiSchema

/-- A digit below sixteen, in lower case. -/
def hexChar (n : Nat) : Char :=
  if n < 10 then Char.ofNat ('0'.toNat + n) else Char.ofNat ('a'.toNat + (n - 10))

/-- The hexadecimal digits of a number, in lower case and without leading zeros. -/
def hexDigits (n : Nat) : Text :=
  if n < 16 then [hexChar n] else hexDigits (n / 16) ++ [hexChar (n % 16)]

/-- One character between quotes. -/
def escapeQuoted (c : Char) : Text :=
  if c = '\\' then ['\\', '\\']
  else if c = '"' then ['\\', '"']
  else if c = '\t' then ['\\', 't']
  else if c = '\n' then ['\\', 'n']
  else if c = '\r' then ['\\', 'r']
  else if c.toNat = 0 then ['\\', '0']
  else if isPrintable c then [c]
  else ['\\', 'u', '{'] ++ hexDigits c.toNat ++ ['}']

namespace Text

/-- A text in quotes. -/
def quoted (text : Text) : Text :=
  '"' :: text.flatMap escapeQuoted ++ ['"']

end Text

end ApiSchema
