import EntityQuery.Settings.TomlScalar
import EntityQuery.Settings.TomlTree

/-!
Reading TOML texts. Every reader takes the characters that are left and answers what it read and
what is left after it. The recursion is bounded by the length of the text, and the depth to which
arrays, tables in braces and keys are read by a number of its own.
-/

namespace EntityQuery.Toml

def isBlank (c : Char) : Bool := c = ' ' || c = '\t'

def skipBlanks (cs : List Char) : List Char := cs.dropWhile isBlank

/-- Whether a control character may not stand in a comment or a text of one line. -/
def isForbidden (c : Char) : Bool := (c.toNat < 0x20 && c != '\t') || c.toNat = 0x7f

/-- Removes a comment, if one follows, up to a line break or a character that it may not have. -/
def skipComment : List Char → List Char
  | '#' :: cs => cs.dropWhile (!isForbidden ·)
  | cs => cs

/-- Removes a line break, if one follows. -/
def skipBreak : List Char → Option (List Char)
  | '\n' :: cs => some cs
  | '\r' :: '\n' :: cs => some cs
  | _ => none

/-- Removes blanks, comments and line breaks, of which there are at most as many as characters. -/
def skipLines : Nat → List Char → List Char
  | 0, cs => cs
  | fuel + 1, cs =>
      let cs := skipComment (skipBlanks cs)
      match skipBreak cs with
      | some rest => skipLines fuel rest
      | none => cs

/-- Removes the end of a line: blanks, a comment, and a line break unless the text ends. -/
def endLine (cs : List Char) : Option (List Char) :=
  let cs := skipComment (skipBlanks cs)
  if cs.isEmpty then some [] else skipBreak cs

def hexNumber? (cs : List Char) : Option Nat :=
  cs.foldlM (fun n c => (Json.hexDigit? c).map (n * 16 + ·)) 0

/-- The character of a code point; surrogates have none. -/
def scalarChar? (n : Nat) : Option Char :=
  if n < 0xD800 ∨ (0xE000 ≤ n ∧ n < 0x110000) then some (Char.ofNat n) else none

/-- The character that an escape stands for, after the backslash. -/
def escape : List Char → Option (Char × List Char)
  | 'b' :: cs => some ('\x08', cs)
  | 't' :: cs => some ('\t', cs)
  | 'n' :: cs => some ('\n', cs)
  | 'f' :: cs => some ('\x0c', cs)
  | 'r' :: cs => some ('\r', cs)
  | '"' :: cs => some ('"', cs)
  | '\\' :: cs => some ('\\', cs)
  | 'u' :: cs => do
      if cs.length < 4 then none
      let n ← hexNumber? (cs.take 4)
      return (← scalarChar? n, cs.drop 4)
  | 'U' :: cs => do
      if cs.length < 8 then none
      let n ← hexNumber? (cs.take 8)
      return (← scalarChar? n, cs.drop 8)
  | _ => none

/-- A text in double quotes, after the opening one. -/
def basicRest : Nat → List Char → Option (List Char × List Char)
  | 0, _ => none
  | fuel + 1, cs =>
      match cs with
      | '"' :: cs => some ([], cs)
      | '\\' :: cs => do
          let (c, cs) ← escape cs
          let (text, cs) ← basicRest fuel cs
          return (c :: text, cs)
      | c :: cs =>
          if isForbidden c then none
          else do
            let (text, cs) ← basicRest fuel cs
            return (c :: text, cs)
      | [] => none

/-- A text in single quotes, after the opening one. -/
def literalRest (cs : List Char) : Option (List Char × List Char) :=
  let text := cs.takeWhile (· != '\'')
  match cs.dropWhile (· != '\'') with
  | [] => none
  | _ :: rest => if text.any isForbidden then none else some (text, rest)

/-- The quotes that end a text of several lines: three close it, and up to two more before them
belong to it. -/
def closingQuotes (quote : Char) (cs : List Char) : Option (List Char × List Char) :=
  let n := (cs.takeWhile (· == quote)).length
  if n < 3 then none
  else
    let inside := min (n - 3) 2
    some (List.replicate inside quote, cs.drop (inside + 3))

/-- Removes blanks and line breaks, as after a backslash at the end of a line. -/
def skipFolded : List Char → List Char
  | [] => []
  | '\r' :: '\n' :: cs => skipFolded cs
  | c :: cs => if isBlank c || c = '\n' then skipFolded cs else c :: cs

/-- A text of several lines, after its opening quotes. Only one in double quotes has escapes. -/
def longRest (quote : Char) : Nat → List Char → Option (List Char × List Char)
  | 0, _ => none
  | fuel + 1, cs =>
      match closingQuotes quote cs with
      | some found => some found
      | none =>
          match cs with
          | [] => none
          | '\r' :: '\n' :: cs => do
              let (text, cs) ← longRest quote fuel cs
              return ('\r' :: '\n' :: text, cs)
          | '\\' :: cs =>
              if quote = '"' then
                match skipBlanks cs with
                | '\n' :: rest => longRest quote fuel (skipFolded rest)
                | '\r' :: '\n' :: rest => longRest quote fuel (skipFolded rest)
                | _ => do
                    let (c, cs) ← escape cs
                    let (text, cs) ← longRest quote fuel cs
                    return (c :: text, cs)
              else do
                let (text, cs) ← longRest quote fuel cs
                return ('\\' :: text, cs)
          | c :: cs =>
              if isForbidden c && c != '\n' then none
              else do
                let (text, cs) ← longRest quote fuel cs
                return (c :: text, cs)

/-- Removes the line break right after the opening quotes of a text of several lines. -/
def dropFirstBreak (cs : List Char) : List Char := (skipBreak cs).getD cs

/-- A text of any of the four kinds. -/
def text (cs : List Char) : Option (String × List Char) :=
  let found :=
    match cs with
    | '"' :: '"' :: '"' :: cs => longRest '"' (cs.length + 1) (dropFirstBreak cs)
    | '"' :: cs => basicRest (cs.length + 1) cs
    | '\'' :: '\'' :: '\'' :: cs => longRest '\'' (cs.length + 1) (dropFirstBreak cs)
    | '\'' :: cs => literalRest cs
    | _ => none
  found.map fun r => (String.ofList r.1, r.2)

def isBareKeyChar (c : Char) : Bool := c.isAlphanum || c = '_' || c = '-'

/-- One part of a key. -/
def keyPart (cs : List Char) : Option (String × List Char) :=
  match cs with
  | '"' :: cs => (basicRest (cs.length + 1) cs).map fun r => (String.ofList r.1, r.2)
  | '\'' :: cs => (literalRest cs).map fun r => (String.ofList r.1, r.2)
  | cs =>
      match cs.takeWhile isBareKeyChar with
      | [] => none
      | key => some (String.ofList key, cs.dropWhile isBareKeyChar)

/-- The greatest depth of arrays and tables in braces, and the most parts of a key. -/
def maxDepth : Nat := 80

/-- The parts of a key, with dots between them, and the blanks after it. -/
def keyParts : Nat → List Char → Option (List String × List Char)
  | 0, _ => none
  | fuel + 1, cs => do
      let (part, cs) ← keyPart (skipBlanks cs)
      match skipBlanks cs with
      | '.' :: cs => do
          let (parts, cs) ← keyParts fuel cs
          return (part :: parts, cs)
      | cs => return ([part], cs)

/-- A key, and the blanks after it. -/
def key (cs : List Char) : Option (List String × List Char) := keyParts maxDepth cs

def isScalarChar (c : Char) : Bool :=
  c.isAlphanum || c = '_' || c = '+' || c = '-' || c = '.' || c = ':'

/-- A number, a date, a time or a truth value. Between a date and a time there may be a space. -/
def scalar (cs : List Char) : Option (TomlValue × List Char) :=
  let word := cs.takeWhile isScalarChar
  let rest := cs.dropWhile isScalarChar
  let (word, rest) :=
    match rest with
    | ' ' :: c :: _ =>
        if isDate word && c.isDigit then
          (word ++ [' '] ++ (rest.drop 1).takeWhile isScalarChar,
            (rest.drop 1).dropWhile isScalarChar)
        else (word, rest)
    | _ => (word, rest)
  if word = ['t', 'r', 'u', 'e'] then some (.bool true, rest)
  else if word = ['f', 'a', 'l', 's', 'e'] then some (.bool false, rest)
  else if isMoment word then some (.moment, rest)
  else (numberFits? word).map fun fits => (if fits then .number else .unreadable, rest)

mutual

/-- A value. Arrays and tables in braces may open at so many further depths. -/
def value : Nat → Nat → List Char → Option (TomlValue × List Char)
  | 0, _, _ => none
  | fuel + 1, depths, cs =>
      match cs, depths with
      | '[' :: cs, depths + 1 => (items fuel depths cs).map fun r => (.array r.1, r.2)
      | '\x7b' :: cs, depths + 1 =>
          (inlineFields fuel depths true [] cs).map fun r => (.table .closed r.1, r.2)
      | '"' :: _, _ => (text cs).map fun r => (.string r.1, r.2)
      | '\'' :: _, _ => (text cs).map fun r => (.string r.1, r.2)
      | _, _ => scalar cs

/-- The items of an array and its closing bracket. The last comma may be there or not. -/
def items : Nat → Nat → List Char → Option (List TomlValue × List Char)
  | 0, _, _ => none
  | fuel + 1, depths, cs => do
      match skipLines (cs.length + 1) cs with
      | ']' :: cs => return ([], cs)
      | cs => do
          let (item, cs) ← value fuel depths cs
          match skipLines (cs.length + 1) cs with
          | ',' :: cs => do
              let (rest, cs) ← items fuel depths cs
              return (item :: rest, cs)
          | ']' :: cs => return ([item], cs)
          | _ => none

/-- The fields of a table in braces and its closing brace. It stands on one line, and no comma
follows the last field. -/
def inlineFields :
    Nat → Nat → Bool → TomlFields → List Char → Option (TomlFields × List Char)
  | 0, _, _, _, _ => none
  | fuel + 1, depths, first, fields, cs =>
      match first, skipBlanks cs with
      | true, '\x7d' :: cs => some (fields, cs)
      | _, cs => do
          let (path, cs) ← key cs
          match cs with
          | '=' :: cs => do
              let (v, cs) ← value fuel depths (skipBlanks cs)
              let fields ← TomlFields.addDotted v path fields
              match skipBlanks cs with
              | ',' :: cs => inlineFields fuel depths false fields cs
              | '\x7d' :: cs => return (fields, cs)
              | _ => none
          | _ => none

end

/-- One header or one key with its value, and the end of its line. -/
def entry (header : List String) (fields : TomlFields) (cs : List Char) :
    Option ((List String × TomlFields) × List Char) := do
  match cs with
  | '[' :: '[' :: cs => do
      let (path, cs) ← key cs
      match cs with
      | ']' :: ']' :: cs => return ((path, ← TomlFields.openArrayTable path fields), ← endLine cs)
      | _ => none
  | '[' :: cs => do
      let (path, cs) ← key cs
      match cs with
      | ']' :: cs => return ((path, ← TomlFields.openTable path fields), ← endLine cs)
      | _ => none
  | cs => do
      let (path, cs) ← key cs
      match cs with
      | '=' :: cs => do
          let cs := skipBlanks cs
          let (v, cs) ← value (2 * cs.length + 2) maxDepth cs
          return ((header, ← TomlFields.addUnder header path v fields), ← endLine cs)
      | _ => none

/-- The entries of a text, one after another. -/
def entries : Nat → List String → TomlFields → List Char → Option TomlFields
  | 0, _, _, _ => none
  | fuel + 1, header, fields, cs => do
      let cs := skipLines (cs.length + 1) cs
      if cs.isEmpty then return fields
      else
        let ((header, fields), cs) ← entry header fields cs
        entries fuel header fields cs

/-- The table that a text describes. A byte order mark at its start is passed over. -/
def read (s : String) : Option TomlFields :=
  let cs :=
    match s.toList with
    | '\ufeff' :: cs => cs
    | cs => cs
  entries (cs.length + 1) [] [] cs

end EntityQuery.Toml
