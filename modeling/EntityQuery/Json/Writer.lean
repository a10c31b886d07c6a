import EntityQuery.Json.Basic
import EntityQuery.Number.DecimalText

/-!
JSON values as text, without blanks. A number that is not finite is written as null.
-/

namespace EntityQuery.Json

/-- A hexadecimal digit. -/
def hexChar (n : Nat) : Char :=
  if n < 10 then Char.ofNat ('0'.toNat + n) else Char.ofNat ('a'.toNat + (n - 10))

/-- A character inside a text. Quotes, backslashes and control characters are escaped. -/
def escapeChar (c : Char) : List Char :=
  if c = '"' then ['\\', '"']
  else if c = '\\' then ['\\', '\\']
  else if c = '\n' then ['\\', 'n']
  else if c = '\r' then ['\\', 'r']
  else if c = '\t' then ['\\', 't']
  else if c.toNat < 0x20 then
    ['\\', 'u', '0', '0', hexChar (c.toNat / 16), hexChar (c.toNat % 16)]
  else [c]

def quote (s : String) : String :=
  "\"" ++ String.ofList (s.toList.flatMap escapeChar) ++ "\""

mutual

/-- The text of a value. -/
def write : Json → String
  | null | unreadable => "null"
  | bool b => if b then "true" else "false"
  | int n => toString n
  | float x => if x.isFinite then x.text else "null"
  | string s => quote s
  | array items => "[" ++ writeItems items ++ "]"
  | object fields => "\x7b" ++ writeFields fields ++ "\x7d"

def writeItems : List Json → String
  | [] => ""
  | [j] => j.write
  | j :: rest => j.write ++ "," ++ writeItems rest

def writeFields : List (String × Json) → String
  | [] => ""
  | [(key, j)] => quote key ++ ":" ++ j.write
  | (key, j) :: rest => quote key ++ ":" ++ j.write ++ "," ++ writeFields rest

end

end EntityQuery.Json
