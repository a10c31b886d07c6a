import EntityQuery.Json.Number

/-!
Reading JSON texts. Every reader takes the characters that are left and answers a value and what
is left after it. The recursion is bounded by the length of the text, and the depth to which
arrays and objects are read by a number of its own.
-/

namespace EntityQuery.Json

def isBlank (c : Char) : Bool := c = ' ' || c = '\n' || c = '\t' || c = '\r'

def skipBlanks (cs : List Char) : List Char := cs.dropWhile isBlank

/-- The value of a hexadecimal digit. -/
def hexDigit? (c : Char) : Option Nat :=
  if c.isDigit then some (c.toNat - '0'.toNat)
  else if 'a' ≤ c ∧ c ≤ 'f' then some (c.toNat - 'a'.toNat + 10)
  else if 'A' ≤ c ∧ c ≤ 'F' then some (c.toNat - 'A'.toNat + 10)
  else none

/-- The sixteen-bit unit of four hexadecimal digits. -/
def hexUnit? (a b c d : Char) : Option Nat := do
  return (((← hexDigit? a) * 16 + (← hexDigit? b)) * 16 + (← hexDigit? c)) * 16 + (← hexDigit? d)

def isHighSurrogate (unit : Nat) : Bool := 0xD800 ≤ unit && unit < 0xDC00

def isLowSurrogate (unit : Nat) : Bool := 0xDC00 ≤ unit && unit < 0xE000

/-- The character that a letter after a backslash stands for. -/
def escaped? : Char → Option Char
  | '"' => some '"'
  | '\\' => some '\\'
  | '/' => some '/'
  | 'b' => some '\x08'
  | 'f' => some '\x0c'
  | 'n' => some '\n'
  | 'r' => some '\r'
  | 't' => some '\t'
  | _ => none

/-- What has been read of a text: its characters, or nothing if half a surrogate pair stood in
it; and what is left after the closing quote. -/
abbrev StringRest := Option (List Char) × List Char

/-- Puts a character before the rest of a text, unless half a pair was waiting for its other
half. -/
def prependChar (waiting : Option Nat) (c : Char) (r : StringRest) : StringRest :=
  (if waiting.isSome then none else r.1.map (c :: ·), r.2)

/-- A text after its opening quote. `waiting` is the high half of a surrogate pair just read. -/
def stringRest : Option Nat → List Char → Option StringRest
  | _, [] => none
  | waiting, '"' :: cs => some (if waiting.isSome then none else some [], cs)
  | waiting, '\\' :: 'u' :: a :: b :: c :: d :: cs => do
      let unit ← hexUnit? a b c d
      match waiting with
      | some high =>
          let r ← stringRest none cs
          if isLowSurrogate unit then
            let point := 0x10000 + (high - 0xD800) * 0x400 + (unit - 0xDC00)
            return prependChar none (Char.ofNat point) r
          else return (none, r.2)
      | none =>
          if isHighSurrogate unit then stringRest (some unit) cs
          else
            let r ← stringRest none cs
            if isLowSurrogate unit then return (none, r.2)
            else return prependChar none (Char.ofNat unit) r
  | waiting, '\\' :: e :: cs => do
      let c ← escaped? e
      let r ← stringRest none cs
      return prependChar waiting c r
  | waiting, c :: cs =>
      if c.toNat < 0x20 then none
      else (stringRest none cs).map (prependChar waiting c)

/-- What a text without a value stands for. -/
def ofStringRest (r : StringRest) : Json :=
  match r.1 with
  | some cs => .string (String.ofList cs)
  | none => .unreadable

/-- The fields of an object, or nothing if one of its keys has no value. -/
abbrev FieldsRest := Option (List (String × Json)) × List Char

/-- Removes a word from the front of a text. -/
def dropWord? : List Char → List Char → Option (List Char)
  | [], cs => some cs
  | w :: ws, c :: cs => if w = c then dropWord? ws cs else none
  | _ :: _, [] => none

mutual

/-- A value, in which `levels` arrays and objects are read inside one another. -/
def readValue : Nat → Nat → List Char → Option (Json × List Char)
  | 0, _, _ => none
  | fuel + 1, levels, cs =>
      match skipBlanks cs with
      | '{' :: cs => do
          let (fields, cs) ←
            match skipBlanks cs with
            | '}' :: cs => some (some [], cs)
            | cs => readFields fuel (levels - 1) cs
          match fields, levels with
          | some fields, _ + 1 => return (.object fields, cs)
          | _, _ => return (.unreadable, cs)
      | '[' :: cs => do
          let (items, cs) ←
            match skipBlanks cs with
            | ']' :: cs => some ([], cs)
            | cs => readItems fuel (levels - 1) cs
          return (if levels = 0 then .unreadable else .array items, cs)
      | '"' :: cs => (stringRest none cs).map fun r => (ofStringRest r, r.2)
      | 'n' :: cs => (dropWord? ['u', 'l', 'l'] cs).map (.null, ·)
      | 't' :: cs => (dropWord? ['r', 'u', 'e'] cs).map (.bool true, ·)
      | 'f' :: cs => (dropWord? ['a', 'l', 's', 'e'] cs).map (.bool false, ·)
      | cs => (Numeral.read cs).map fun r => (r.1.value, r.2)

/-- The items of an array that is not empty, and its closing bracket. -/
def readItems : Nat → Nat → List Char → Option (List Json × List Char)
  | 0, _, _ => none
  | fuel + 1, levels, cs => do
      let (item, cs) ← readValue fuel levels cs
      match skipBlanks cs with
      | ']' :: cs => return ([item], cs)
      | ',' :: cs => do
          let (items, cs) ← readItems fuel levels cs
          return (item :: items, cs)
      | _ => none

/-- The fields of an object that is not empty, and its closing brace. -/
def readFields : Nat → Nat → List Char → Option FieldsRest
  | 0, _, _ => none
  | fuel + 1, levels, cs =>
      match skipBlanks cs with
      | '"' :: cs => do
          let (key, cs) ← stringRest none cs
          match skipBlanks cs with
          | ':' :: cs => do
              let (value, cs) ← readValue fuel levels cs
              let (rest, cs) ←
                match skipBlanks cs with
                | '}' :: cs => some (some [], cs)
                | ',' :: cs => readFields fuel levels cs
                | _ => none
              return (do return (String.ofList (← key), value) :: (← rest), cs)
          | _ => none
      | _ => none

end

/-- How many arrays and objects may stand inside one another where they are looked at. -/
def nestingLimit : Nat := 127

/-- The value of a text that holds one value and blanks. -/
def read (s : String) : Option Json := do
  let cs := s.toList
  let (value, rest) ← readValue (2 * cs.length + 2) nestingLimit cs
  if (skipBlanks rest).isEmpty then some value else none

end EntityQuery.Json
