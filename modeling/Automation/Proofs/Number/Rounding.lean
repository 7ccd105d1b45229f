import Automation.Value

/-!
# Integers become finite doubles

An integer of 64 bits lies far below the greatest double, so the double nearest to a number of a value
is always finite (`Number.isFinite_toDouble`).  Rounding alone could lead out of a format, but no
further than to twice the number that is rounded (`FloatFormat.round_one_le`).
-/

namespace Automation

namespace FloatFormat

theorem step_le (f : FloatFormat) {units : Nat} (h : units ≠ 0) : f.step units ≤ units := by
  have hexcess : f.excess units ≤ units.log2 := by
    have := f.precision_pos
    unfold excess
    omega
  exact Nat.le_trans (Nat.pow_le_pow_right (by decide) hexcess) (Nat.log2_self_le h)

/-- Rounding makes nothing more than twice as great. -/
theorem round_one_le (f : FloatFormat) (units : Nat) : f.round units 1 ≤ 2 * units := by
  by_cases hzero : units = 0
  · have hround := f.round_zero 1
    rw [hzero]
    omega
  · have hstep := f.step_le hzero
    have hnearest := nearest_le units (f.step units)
    have hdiv := Nat.div_mul_le_self units (f.step units)
    have hmul := Nat.mul_le_mul_right (f.step units) hnearest
    rw [Nat.add_mul, Nat.one_mul] at hmul
    unfold round
    dsimp only
    rw [Nat.div_one, Nat.one_mul]
    omega

theorem round_lt_limit {f : FloatFormat} {n k : Nat} (hn : n ≤ Nat.pow 2 k)
    (hk : k + f.scale + 1 < f.overflow) : f.round (n * f.one) 1 < f.limit := by
  have hunits : n * f.one ≤ Nat.pow 2 (k + f.scale) := by
    have hpow : Nat.pow 2 (k + f.scale) = Nat.pow 2 k * f.one := Nat.pow_add 2 k f.scale
    rw [hpow]
    exact Nat.mul_le_mul_right _ hn
  calc f.round (n * f.one) 1 ≤ 2 * (n * f.one) := f.round_one_le _
    _ ≤ 2 * Nat.pow 2 (k + f.scale) := Nat.mul_le_mul_left 2 hunits
    _ = Nat.pow 2 (k + f.scale + 1) := Nat.pow_succ'.symm
    _ < f.limit := Nat.pow_lt_pow_right (by decide) hk

end FloatFormat

/-- Every number of a value is a finite double, or nearest to one. -/
theorem Number.isFinite_toDouble (n : Number) : n.toDouble.isFinite = true := by
  cases n with
  | double negative size => rfl
  | integer i hrange =>
    have hsize : i.natAbs ≤ Nat.pow 2 64 := by
      have hpow : Nat.pow 2 64 = 18446744073709551616 := rfl
      omega
    have hround : FloatFormat.double.round (i.natAbs * FloatFormat.double.one) 1 <
        FloatFormat.double.limit := FloatFormat.round_lt_limit hsize (by decide)
    rw [toDouble, Binary.ofInt, Binary.ofQuotient, Magnitude.ofUnits?, dif_pos hround]
    rfl

end Automation
