import EntityQuery.Json.Reader
import EntityQuery.Number.Double

/-!
Numbers, dates and times of TOML texts. Settings have no use for their values, but every word is
checked in full: a day that its month does not have is refused, and so are, where they are looked
at, an integer that 128 bits do not hold and a float beyond the range of doubles.
-/

namespace EntityQuery

namespace Toml

/-- Digits without the single underscores that may stand between them. -/
def joined? (isDigit : Char → Bool) (cs : List Char) : Option (List Char) :=
  let groups := ((String.ofList cs).splitOn "_").map String.toList
  if groups.all fun group => !group.isEmpty && group.all isDigit then some groups.flatten else none

/-- The number that digits stand for in a base up to sixteen. -/
def natural? (base : Nat) (cs : List Char) : Option Nat := do
  let digits ← joined? (fun c => (Json.hexDigit? c).any (· < base)) cs
  return digits.foldl (fun n c => n * base + (Json.hexDigit? c).getD 0) 0

/-- The number that decimal digits without a leading zero stand for. -/
def decimal? (cs : List Char) : Option Nat :=
  if cs.head? = some '0' ∧ cs.length ≠ 1 then none else natural? 10 cs

/-- An integer in any of the four notations. -/
def integer? : List Char → Option Int
  | '0' :: 'x' :: cs => (natural? 16 cs).map Int.ofNat
  | '0' :: 'o' :: cs => (natural? 8 cs).map Int.ofNat
  | '0' :: 'b' :: cs => (natural? 2 cs).map Int.ofNat
  | '-' :: cs => (decimal? cs).map fun n => -Int.ofNat n
  | '+' :: cs => (decimal? cs).map Int.ofNat
  | cs => (decimal? cs).map Int.ofNat

/-- Whether 128 bits hold an integer, with a sign or without. -/
def fitsWord (n : Int) : Bool :=
  -Int.ofNat (Nat.pow 2 127) ≤ n && n < Int.ofNat (Nat.pow 2 128)

/-- Characters after an optional sign. -/
def unsigned : List Char → List Char
  | '+' :: cs => cs
  | '-' :: cs => cs
  | cs => cs

def isExponentMark (c : Char) : Bool := c = 'e' || c = 'E'

/-- The exponent that stands after its letter. -/
def exponent? : List Char → Option Int
  | '-' :: cs => (natural? 10 cs).map fun n => -Int.ofNat n
  | '+' :: cs => (natural? 10 cs).map Int.ofNat
  | cs => (natural? 10 cs).map Int.ofNat

/-- A number with a fraction, an exponent or both, as digits and the power of ten that scales
them. It has no sign. -/
def float? (cs : List Char) : Option (Nat × Int) := do
  let mantissa := cs.takeWhile (!isExponentMark ·)
  let exponent ←
    match cs.dropWhile (!isExponentMark ·) with
    | [] => some 0
    | _ :: cs => exponent? cs
  let whole ← decimal? (mantissa.takeWhile (· != '.'))
  match mantissa.dropWhile (· != '.') with
  | [] => if mantissa.length = cs.length then none else return (whole, exponent)
  | _ :: fraction =>
      let places := (← joined? Char.isDigit fraction).length
      return (whole * Nat.pow 10 places + (← natural? 10 fraction), exponent - places)

/-- Whether characters are a float without digits. -/
def isNamedFloat (cs : List Char) : Bool :=
  let cs := unsigned cs
  cs = ['i', 'n', 'f'] || cs = ['n', 'a', 'n']

/-- Whether the number that characters stand for can be read; none if they are no number. -/
def numberFits? (cs : List Char) : Option Bool :=
  if isNamedFloat cs then some true
  else
    match integer? cs with
    | some n => some (fitsWord n)
    | none => (float? (unsigned cs)).map fun x => Double.isFiniteDecimal x.1 x.2

/-- The number that a fixed count of decimal digits stands for. -/
def fixedDigits? (count : Nat) (cs : List Char) : Option Nat :=
  if cs.length = count ∧ cs.all Char.isDigit then natural? 10 cs else none

def isLeapYear (year : Nat) : Bool := year % 4 = 0 && (year % 100 != 0 || year % 400 = 0)

def daysInMonth (year month : Nat) : Nat :=
  if month = 2 then if isLeapYear year then 29 else 28
  else if month = 4 ∨ month = 6 ∨ month = 9 ∨ month = 11 then 30
  else 31

/-- Whether characters are a day: year, month and a day that the month has. -/
def isDate (cs : List Char) : Bool :=
  match ((String.ofList cs).splitOn "-").map String.toList with
  | [y, m, d] =>
      match fixedDigits? 4 y, fixedDigits? 2 m, fixedDigits? 2 d with
      | some year, some month, some day =>
          1 ≤ month && month ≤ 12 && 1 ≤ day && day ≤ daysInMonth year month
      | _, _, _ => false
  | _ => false

/-- Whether characters are two digits of a number up to a bound. -/
def isTwoDigits (high : Nat) (cs : List Char) : Bool := (fixedDigits? 2 cs).any (· ≤ high)

/-- Whether characters are a time of the day, perhaps with a fraction of the second. A minute may
have a leap second. -/
def isTime (cs : List Char) : Bool :=
  match (String.ofList cs).splitOn ":" with
  | [h, m, s] =>
      isTwoDigits 23 h.toList && isTwoDigits 59 m.toList &&
        match s.splitOn "." with
        | [s] => isTwoDigits 60 s.toList
        | [s, f] => isTwoDigits 60 s.toList && !f.isEmpty && f.all Char.isDigit
        | _ => false
  | _ => false

/-- Whether characters are the offset of a time zone. -/
def isOffset : List Char → Bool
  | ['Z'] => true
  | ['z'] => true
  | sign :: cs =>
      (sign = '+' || sign = '-') &&
        match (String.ofList cs).splitOn ":" with
        | [h, m] => isTwoDigits 23 h.toList && isTwoDigits 59 m.toList
        | _ => false
  | [] => false

/-- Whether characters are a time with or without an offset. -/
def isZonedTime (cs : List Char) : Bool :=
  let isMark := fun c => c = 'Z' || c = 'z' || c = '+' || c = '-'
  let offset := cs.dropWhile (!isMark ·)
  isTime (cs.takeWhile (!isMark ·)) && (offset.isEmpty || isOffset offset)

/-- Whether characters are a date, a time, or both. -/
def isMoment (cs : List Char) : Bool :=
  isTime cs || isDate cs ||
    (isDate (cs.take 10) &&
      match cs.drop 10 with
      | separator :: cs =>
          (separator = 'T' || separator = 't' || separator = ' ') && isZonedTime cs
      | [] => false)

end Toml

end EntityQuery
