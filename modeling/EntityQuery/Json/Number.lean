import EntityQuery.Json.Basic

/-!
Numbers of JSON texts. A numeral without fraction and exponent is an integer if sixty-four bits
hold it; minus zero is not an integer. Every other numeral is a double: the leading digits, as
many as sixty-four bits hold, scaled by a power of ten. So a double is right up to a rounding of
the digits and one of the scaling.
-/

namespace EntityQuery

/-- A numeral as written. -/
structure Numeral where
  negative : Bool
  whole : List Nat
  fraction : Option (List Nat) := none
  /-- The digits of the exponent, and whether it is negative. -/
  exponent : Option (Bool × List Nat) := none
deriving DecidableEq, Repr

namespace Numeral

/-- The digits at the front of a text, and the rest. -/
def digits (cs : List Char) : List Nat × List Char :=
  ((cs.takeWhile Char.isDigit).map fun c => c.toNat - '0'.toNat, cs.dropWhile Char.isDigit)

/-- Digits, of which there has to be one. -/
def someDigits (cs : List Char) : Option (List Nat × List Char) :=
  match digits cs with
  | ([], _) => none
  | found => some found

/-- The digits before the point: a zero alone, or digits that do not start with zero. -/
def wholeDigits (cs : List Char) : Option (List Nat × List Char) :=
  match digits cs with
  | ([], _) => none
  | (0 :: _ :: _, _) => none
  | found => some found

/-- The fraction, if a point follows. -/
def fractionDigits : List Char → Option (Option (List Nat) × List Char)
  | '.' :: cs => (someDigits cs).map fun r => (some r.1, r.2)
  | cs => some (none, cs)

/-- The digits of an exponent after its letter. -/
def signedDigits : List Char → Option ((Bool × List Nat) × List Char)
  | '-' :: cs => (someDigits cs).map fun r => ((true, r.1), r.2)
  | '+' :: cs => (someDigits cs).map fun r => ((false, r.1), r.2)
  | cs => (someDigits cs).map fun r => ((false, r.1), r.2)

/-- The exponent, if its letter follows. -/
def exponentDigits : List Char → Option (Option (Bool × List Nat) × List Char)
  | 'e' :: cs | 'E' :: cs => (signedDigits cs).map fun r => (some r.1, r.2)
  | cs => some (none, cs)

/-- The numeral at the front of a text, and the rest. -/
def read (cs : List Char) : Option (Numeral × List Char) := do
  let (negative, cs) :=
    match cs with
    | '-' :: rest => (true, rest)
    | _ => (false, cs)
  let (whole, cs) ← wholeDigits cs
  let (fraction, cs) ← fractionDigits cs
  let (exponent, cs) ← exponentDigits cs
  return (⟨negative, whole, fraction, exponent⟩, cs)

/-- The natural number that digits stand for. -/
def natOfDigits (ds : List Nat) : Nat := ds.foldl (fun n d => n * 10 + d) 0

/-- Appends digits to a number as long as sixty-four bits hold it; answers how many digits were
appended, too. -/
def appendDigits : Nat → Nat → List Nat → Nat × Nat
  | n, count, [] => (n, count)
  | n, count, d :: ds =>
      if n * 10 + d < UInt64.size then appendDigits (n * 10 + d) (count + 1) ds else (n, count)

/-- The leading digits of a numeral, and the power of ten that scales them when there is no
exponent. -/
def leading (x : Numeral) : Nat × Int :=
  let (n, kept) := appendDigits 0 0 x.whole
  let dropped : Int := x.whole.length - kept
  match x.fraction with
  | none => (n, dropped)
  | some ds =>
      let (n, kept) := appendDigits n 0 ds
      (n, dropped - kept)

def powerOfTen (n : Nat) : Float := Float.ofScientific 1 false n

/-- `x * 10 ^ exponent`. A negative exponent beyond the range of doubles is taken in pieces, and
three of them leave nothing. -/
def scaled : Nat → Float → Int → Option Float
  | 0, _, _ => some 0
  | pieces + 1, x, exponent =>
      if exponent.natAbs ≤ 308 then
        if 0 ≤ exponent then
          let y := x * powerOfTen exponent.toNat
          if y.isInf then none else some y
        else some (x / powerOfTen exponent.natAbs)
      else if x == 0 then some x
      else if 0 ≤ exponent then none
      else scaled pieces (x / powerOfTen 308) (exponent + 308)

/-- The double that a numeral stands for, without its sign; none if it is too great. An exponent
that thirty-two bits do not hold makes a number zero or too great. -/
def magnitude? (x : Numeral) : Option Float :=
  let (n, scale) := x.leading
  match x.exponent with
  | none => scaled 4 n.toUInt64.toFloat scale
  | some (negative, ds) =>
      let exponent := natOfDigits ds
      if Int32.maxValue.toInt < exponent then if n ≠ 0 ∧ !negative then none else some 0
      else scaled 4 n.toUInt64.toFloat (scale + if negative then -(exponent : Int) else exponent)

/-- The value of a numeral. -/
def value (x : Numeral) : Json :=
  let n := natOfDigits x.whole
  if x.fraction.isNone ∧ x.exponent.isNone ∧ !x.negative ∧ n < UInt64.size then .int n
  else if x.fraction.isNone ∧ x.exponent.isNone ∧ x.negative ∧ 0 < n
      ∧ Int64.minValue.toInt ≤ -n then .int (-n)
  else
    match x.magnitude? with
    | some f => .float (Double.ofFloat (if x.negative then -f else f))
    | none => .unreadable

end Numeral

end EntityQuery
