import Mathlib.Algebra.Group.Nat.Defs
import EntityQuery.Number.Double

/-!
Integers that are read as doubles are finite doubles, as long as they are not as great as the
greatest of these.
-/

namespace EntityQuery.Double

/-- The sign is not part of the exponent. -/
theorem exponentBits_or_sign (x : Double) :
    exponentBits ⟨x.bits ||| 0x8000000000000000⟩ = x.exponentBits := by
  have hsign : ((0x8000000000000000 : UInt64) >>> 52) &&& 0x7ff = 0 := by decide
  have hdistrib (a b c : UInt64) : (a ||| b) &&& c = (a &&& c) ||| (b &&& c) :=
    UInt64.toBitVec_inj.1 (by
      simp only [UInt64.toBitVec_and, UInt64.toBitVec_or, BitVec.and_or_distrib_right])
  rw [exponentBits, exponentBits, UInt64.shiftRight_or, hdistrib, hsign, UInt64.or_zero]

/-- Bits below those of the infinities are finite. -/
theorem isFinite_of_lt {k : Nat} (h : k < 2047 * 2 ^ 52) : isFinite ⟨UInt64.ofNat k⟩ = true := by
  have hbits : (UInt64.ofNat k).toNat = k := UInt64.toNat_ofNat_of_lt' (Nat.lt_trans h (by decide))
  have hexponent : exponentBits ⟨UInt64.ofNat k⟩ < 2047 := by
    rw [exponentBits, UInt64.toNat_and, UInt64.toNat_shiftRight, hbits]
    refine Nat.lt_of_le_of_lt Nat.and_le_left ?_
    rw [show (52 : UInt64).toNat % 64 = 52 from rfl, Nat.shiftRight_eq_div_pow]
    omega
  exact bne_iff_ne.2 (Nat.ne_of_lt hexponent)

/-- The significand has at most fifty-three digits, before it is rounded. -/
theorem floor_lt (n : Nat) :
    n * Nat.pow 2 (52 - n.log2) / Nat.pow 2 (n.log2 - 52) < 2 ^ 53 := by
  have hn : n < 2 ^ (n.log2 + 1) := Nat.lt_log2_self
  refine Nat.div_lt_of_lt_mul ?_
  calc n * Nat.pow 2 (52 - n.log2)
      < 2 ^ (n.log2 + 1) * 2 ^ (52 - n.log2) :=
        Nat.mul_lt_mul_of_pos_right hn (Nat.pow_pos (by decide))
    _ = 2 ^ (n.log2 - 52) * 2 ^ 53 := by
        rw [← Nat.pow_add, ← Nat.pow_add]
        congr 1
        omega

theorem pow_le_pow_sub_pow {i j k : Nat} (hij : i ≤ j) (hjk : j < k) :
    Nat.pow 2 i ≤ Nat.pow 2 k - Nat.pow 2 j := by
  have hi : Nat.pow 2 i ≤ Nat.pow 2 j := Nat.pow_le_pow_right (by decide) hij
  have hj : Nat.pow 2 (j + 1) ≤ Nat.pow 2 k := Nat.pow_le_pow_right (by decide) hjk
  have hsucc : Nat.pow 2 (j + 1) = Nat.pow 2 j * 2 := Nat.pow_succ 2 j
  omega

theorem isFinite_ofNat {n : Nat} (h : n < 2 ^ 64) : (ofNat n).isFinite = true := by
  have hfloor := floor_lt n
  rw [ofNat]
  split
  · decide
  next hpos =>
    have hsize : n.log2 < 64 := (Nat.log2_lt hpos).2 h
    have hoverflow : Nat.pow 2 64 ≤ overflow := by
      delta overflow
      apply pow_le_pow_sub_pow <;> decide
    rw [if_neg (Nat.not_le.2 (Nat.lt_of_lt_of_le h hoverflow))]
    refine isFinite_of_lt ?_
    rw [show Nat.pow 2 52 = 2 ^ 52 from rfl]
    split <;> omega

theorem isFinite_ofInt {n : Int} (h : n.natAbs < 2 ^ 64) : (ofInt n).isFinite = true := by
  have hmagnitude := isFinite_ofNat h
  rw [ofInt]
  split
  · rwa [isFinite, exponentBits_or_sign]
  · exact hmagnitude

end EntityQuery.Double
