import EntityQuery.Text.CaseTable

/-!
Upper and lower case of whole texts, by the full mappings of the Unicode standard: one character
may become several, and a capital sigma becomes a final sigma at the end of a word. Names that
the query language compares without case are compared in ASCII only.
-/

namespace EntityQuery

namespace Casing

/-- The characters a code point maps to, by a table of expansions and a table of runs. -/
def mapping (expansions : List (Nat × List Nat)) (runs : List Run) (c : Char) : List Char :=
  match expansions.lookup c.toNat with
  | some points => points.map Char.ofNat
  | none =>
      match runs.findSome? fun r => r.map? c.toNat with
      | some point => [Char.ofNat point]
      | none => [c]

/-- Upper case of one character. ASCII needs no table. -/
def upperChar (c : Char) : List Char :=
  if c.toNat < 128 then [c.toUpper] else mapping upperExpansions upperRuns c

/-- Lower case of one character, away from the end of a word. ASCII needs no table. -/
def lowerChar (c : Char) : List Char :=
  if c.toNat < 128 then [c.toLower] else mapping lowerExpansions lowerRuns c

def inRanges (ranges : List (Nat × Nat)) (c : Char) : Bool :=
  ranges.any fun r => r.1 ≤ c.toNat && c.toNat ≤ r.2

/-- Whether the first character that is not ignorable has case. -/
def meetsCased (cs : List Char) : Bool :=
  match cs.dropWhile (inRanges ignorableRanges) with
  | [] => false
  | c :: _ => inRanges casedRanges c

/-- Lower case of the characters after `before`, which is given in reverse. A sigma is final
if a letter stands before it and none after. -/
def lowerChars (before : List Char) : List Char → List Char
  | [] => []
  | c :: rest =>
      let image :=
        if c = 'Σ' then [if meetsCased before && !meetsCased rest then 'ς' else 'σ']
        else lowerChar c
      image ++ lowerChars (c :: before) rest

end Casing

namespace Text

/-- Upper case by the full Unicode mappings. -/
def upper (s : String) : String := String.ofList (s.toList.flatMap Casing.upperChar)

/-- Lower case by the full Unicode mappings. -/
def lower (s : String) : String := String.ofList (Casing.lowerChars [] s.toList)

/-- Equality up to the case of ASCII letters. -/
def agreesIgnoringCase (s t : String) : Bool :=
  s.toList.map Char.toLower == t.toList.map Char.toLower

end Text

end EntityQuery
