/-!
Double-precision numbers, held as their sixty-four bits. Sign, exponent and fraction are
read off the bits, so that every question about a number is one about words and naturals.
-/

namespace EntityQuery

/-- A number of the binary64 format, held as its bits. -/
structure Double where
  bits : UInt64
deriving DecidableEq, Repr, Inhabited

namespace Double

/-- The number a machine float holds. -/
def ofFloat (x : Float) : Double := ⟨x.toBits⟩

/-- Whether the sign bit is set. -/
def negative (x : Double) : Bool := x.bits >>> 63 != 0

/-- The eleven exponent bits. -/
def exponentBits (x : Double) : Nat := ((x.bits >>> 52) &&& 0x7ff).toNat

/-- The fifty-two fraction bits. -/
def fractionBits (x : Double) : Nat := (x.bits &&& 0xfffffffffffff).toNat

def isFinite (x : Double) : Bool := x.exponentBits != 2047

def isNaN (x : Double) : Bool := x.exponentBits == 2047 && x.fractionBits != 0

def isZero (x : Double) : Bool := x.exponentBits == 0 && x.fractionBits == 0

/-- Equality as numbers: the two zeros agree, and no NaN agrees with anything. -/
def agrees (x y : Double) : Bool :=
  !x.isNaN && !y.isNaN && (x.bits == y.bits || (x.isZero && y.isZero))

/-- The integer `m` with `|x| = m * 2 ^ x.scale`, for a finite `x`. -/
def significand (x : Double) : Nat :=
  if x.exponentBits = 0 then x.fractionBits else x.fractionBits + Nat.pow 2 52

/-- The power of two that the significand counts. -/
def scale (x : Double) : Int := (max x.exponentBits 1 : Nat) - 1075

/-- The least number that rounds to infinity: the middle between the greatest finite double and
the power of two above it. -/
def overflow : Nat := Nat.pow 2 1024 - Nat.pow 2 970

/-- The double nearest to a natural number; of two that are as near, the one with the even
significand. -/
def ofNat (n : Nat) : Double :=
  let size := n.log2
  if n = 0 then ⟨0⟩
  else if overflow ≤ n then ⟨0x7ff0000000000000⟩
  else
    let unit := Nat.pow 2 (size - 52)
    let floor := n * Nat.pow 2 (52 - size) / unit
    let rest := n % unit
    let roundUp := unit < 2 * rest || (2 * rest == unit && floor % 2 == 1)
    -- The leading digit of the significand is not held; it counts as one in the exponent.
    ⟨UInt64.ofNat ((size + 1022) * Nat.pow 2 52 + if roundUp then floor + 1 else floor)⟩

/-- The double nearest to an integer. -/
def ofInt (n : Int) : Double :=
  let magnitude := ofNat n.natAbs
  if n < 0 then ⟨magnitude.bits ||| 0x8000000000000000⟩ else magnitude

/-- Whether `n * 10 ^ exponent` rounds to a finite double. The number of its digits decides, unless
it has as many as `overflow`; so only moderate powers are taken. -/
def isFiniteDecimal (n : Nat) (exponent : Int) : Bool :=
  let size := (Nat.toDigits 10 n).length + exponent
  n == 0 || size < 309 || (size == 309 &&
    n * Nat.pow 10 exponent.toNat < overflow * Nat.pow 10 (-exponent).toNat)

end Double

end EntityQuery
