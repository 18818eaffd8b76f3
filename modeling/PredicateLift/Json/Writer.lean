import PredicateLift.Binary.Decimal
import PredicateLift.Json.Basic
import PredicateLift.Text.Quoted

/-!
# Writing documents

Documents are written without blanks, in ASCII: any other character is escaped by its UTF-16 units.
-/

namespace PredicateLift.Json

/-- Four digits of a UTF-16 unit, after the mark of an escape. -/
def unitEscape (n : Nat) : List Char :=
  let digits := Text.hexDigits n
  ['\\', 'u'] ++ List.replicate (4 - digits.length) '0' ++ digits

/-- How a character is written in a string. -/
def escape (c : Char) : List Char :=
  if c == '"' then ['\\', '"']
  else if c == '\\' then ['\\', '\\']
  else if ' ' ≤ c ∧ c < '\x7f' then [c]
  else if c.toNat < 0x10000 then unitEscape c.toNat
  else
    let n := c.toNat - 0x10000
    unitEscape (0xd800 + n / 0x400) ++ unitEscape (0xdc00 + n % 0x400)

/-- How a string is written. -/
def quoted (s : String) : String :=
  String.ofList ('"' :: s.toList.flatMap escape ++ ['"'])

mutual

/-- The text of a document. -/
def text : Json → String
  | null => "null"
  | bool value => if value then "true" else "false"
  | integer value => toString value
  | number value => value.text
  | string value => quoted value
  | array items => "[" ++ ",".intercalate (itemTexts items) ++ "]"
  | object members => "\x7b" ++ ",".intercalate (memberTexts members) ++ "\x7d"

/-- The texts of the items of an array. -/
def itemTexts : List Json → List String
  | [] => []
  | item :: items => item.text :: itemTexts items

/-- The texts of the members of an object. -/
def memberTexts : List (String × Json) → List String
  | [] => []
  | (name, value) :: members => (quoted name ++ ":" ++ value.text) :: memberTexts members

end

end PredicateLift.Json
