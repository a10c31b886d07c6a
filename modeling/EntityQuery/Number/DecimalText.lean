import EntityQuery.Number.Shortest

/-!
Numbers as text. A number from `10 ^ (-5)` up to, but not including, `10 ^ 16` is written
positionally and always with a point; any other is written with one digit before the point and
an exponent.
-/

namespace EntityQuery

namespace Decimal

/-- `n` zeros. -/
def zeros (n : Nat) : String := String.ofList (List.replicate n '0')

/-- The text of a decimal other than zero. -/
def text (d : Decimal) : String :=
  let digits := toString d.digits
  let length : Int := digits.length
  let point := length + d.exponent
  if 0 ≤ d.exponent ∧ point ≤ 16 then
    digits ++ zeros d.exponent.toNat ++ ".0"
  else if 0 < point ∧ point ≤ 16 then
    let chars := digits.toList
    String.ofList (chars.take point.toNat) ++ "." ++ String.ofList (chars.drop point.toNat)
  else if -5 < point ∧ point ≤ 0 then
    "0." ++ zeros (-point).toNat ++ digits
  else
    let exponent := toString (point - 1)
    match digits.toList with
    | [] => "e" ++ exponent
    | [c] => String.ofList [c] ++ "e" ++ exponent
    | c :: rest => String.ofList [c] ++ "." ++ String.ofList rest ++ "e" ++ exponent

end Decimal

namespace Double

/-- The names of the numbers that have no digits. -/
def nonFiniteText (x : Double) : String :=
  if x.isNaN then "NaN" else if x.negative then "-inf" else "inf"

/-- A number as written in a query or a document. -/
def text (x : Double) : String :=
  if !x.isFinite then x.nonFiniteText
  else
    let sign := if x.negative then "-" else ""
    if x.isZero then sign ++ "0.0" else sign ++ x.shortest.text

end Double

end EntityQuery
