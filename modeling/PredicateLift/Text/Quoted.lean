import PredicateLift.Text.Printable
import PredicateLift.Text.Combining

/-!
# Quoted text

Text is shown between double quotes. Quotes, backslashes and the usual controls are escaped by a letter; characters
that would not show, or that would attach to the character before them, are written by their code point.
-/

namespace PredicateLift.Text

/-- The digits of a number in base sixteen, lower case. -/
def hexDigits (n : Nat) : List Char :=
  Nat.toDigits 16 n

/-- A character written by its code point. -/
def codePointEscape (c : Char) : List Char :=
  ['\\', 'u', '\x7b'] ++ hexDigits c.toNat ++ ['\x7d']

/-- How one character is written inside quotes. -/
def escape (c : Char) : List Char :=
  if c == '\x00' then ['\\', '0']
  else if c == '\t' then ['\\', 't']
  else if c == '\r' then ['\\', 'r']
  else if c == '\n' then ['\\', 'n']
  else if c == '"' then ['\\', '"']
  else if c == '\\' then ['\\', '\\']
  else if isCombining c then codePointEscape c
  else if isPrintable c then [c]
  else codePointEscape c

/-- Text between double quotes, with the characters inside escaped. -/
def quote (s : String) : String :=
  String.ofList ('"' :: s.toList.flatMap escape ++ ['"'])

end PredicateLift.Text
