import Automation.Number.Binary

/-!
# Rounding keeps order

A greater quotient is never rounded to a lesser value (`FloatFormat.round_mono`).  As long as two
quotients have values of the format equally far apart around them, this is the order of nearest whole
numbers.  Where the distance grows, a power of two lies between them: one is rounded to at most that
power, which has one bit more than fits, and the other to at least that power.

So multiples of doubles are in the order of the doubles, also those too great for the format
(`Binary.scale_le_scale`).
-/

namespace Automation

namespace FloatFormat

theorem le_nearest (num den : Nat) : num / den ≤ nearest num den := by
  unfold nearest
  dsimp only
  split
  · exact Nat.le_refl _
  · split <;> omega

theorem nearest_mono {a b : Nat} (h : a ≤ b) (den : Nat) : nearest a den ≤ nearest b den := by
  rcases Nat.lt_or_eq_of_le (Nat.div_le_div_right (c := den) h) with hlt | heq
  · calc nearest a den ≤ a / den + 1 := nearest_le a den
      _ ≤ b / den := hlt
      _ ≤ nearest b den := le_nearest b den
  · have hmod : a % den ≤ b % den := by
      have ha := Nat.div_add_mod a den
      have hb := Nat.div_add_mod b den
      rw [heq] at ha
      omega
    unfold nearest
    dsimp only
    rw [heq]
    split <;> split <;> (try split) <;> (try split) <;> omega

variable (f : FloatFormat)

theorem excess_mono {m n : Nat} (h : m ≤ n) : f.excess m ≤ f.excess n := by
  have hlog : m.log2 ≤ n.log2 := by
    by_cases hm : m = 0
    · subst hm
      exact Nat.zero_le _
    · exact (Nat.le_log2 (by omega)).2 (Nat.le_trans (Nat.log2_self_le hm) h)
  unfold excess
  omega

/-- Rounding adds at most one bit, and then nothing is left of the others. -/
theorem round_le (num den : Nat) :
    f.round num den ≤ Nat.pow 2 f.precision * f.step (num / den) := by
  have hquotient := f.quotient_lt num den
  have hnearest := nearest_le num (den * f.step (num / den))
  exact Nat.mul_le_mul_right _ (by omega)

/-- Rounding keeps the first of the bits that fit. -/
theorem le_round {num den : Nat} (h : 0 < f.excess (num / den)) :
    Nat.pow 2 (f.precision - 1) * f.step (num / den) ≤ f.round num den := by
  have hpos := f.precision_pos
  have hlog : f.precision - 1 + f.excess (num / den) = (num / den).log2 := by
    unfold excess at h ⊢
    omega
  have hne : num / den ≠ 0 := by
    intro hzero
    rw [hzero, Nat.log2_zero] at hlog
    rw [hzero] at h
    omega
  have hdiv : Nat.pow 2 (f.precision - 1) ≤ num / den / f.step (num / den) := by
    rw [Nat.le_div_iff_mul_le (f.step_pos _), step, Nat.pow_eq, Nat.pow_eq, ← Nat.pow_add, hlog]
    exact Nat.log2_self_le hne
  refine Nat.mul_le_mul_right _ (Nat.le_trans hdiv ?_)
  rw [Nat.div_div_eq_div_mul]
  exact le_nearest num _

theorem round_mono {a b : Nat} (h : a ≤ b) (den : Nat) : f.round a den ≤ f.round b den := by
  rcases Nat.lt_or_eq_of_le (f.excess_mono (Nat.div_le_div_right (c := den) h)) with hlt | heq
  · have hpow : Nat.pow 2 f.precision = Nat.pow 2 (f.precision - 1) * Nat.pow 2 1 := by
      rw [Nat.pow_eq, Nat.pow_eq, Nat.pow_eq, ← Nat.pow_add, Nat.sub_add_cancel f.precision_pos]
    have hstep : Nat.pow 2 1 * f.step (a / den) ≤ f.step (b / den) := by
      rw [step, step, Nat.pow_eq, Nat.pow_eq, Nat.pow_eq, ← Nat.pow_add]
      exact Nat.pow_le_pow_right (by decide) (by omega)
    calc f.round a den ≤ Nat.pow 2 f.precision * f.step (a / den) := f.round_le a den
      _ = Nat.pow 2 (f.precision - 1) * (Nat.pow 2 1 * f.step (a / den)) := by
          rw [hpow, Nat.mul_assoc]
      _ ≤ Nat.pow 2 (f.precision - 1) * f.step (b / den) := Nat.mul_le_mul_left _ hstep
      _ ≤ f.round b den := f.le_round (by omega)
  · have hstep : f.step (a / den) = f.step (b / den) := congrArg (Nat.pow 2) heq
    unfold round
    dsimp only
    rw [hstep]
    exact Nat.mul_le_mul_right _ (nearest_mono h _)

theorem mul_one_le_limit {n : Nat} (hn : n < Nat.pow 2 f.precision)
    (hf : f.precision + f.scale ≤ f.overflow) : n * f.one ≤ f.limit :=
  calc n * f.one ≤ Nat.pow 2 f.precision * f.one := Nat.mul_le_mul_right _ (Nat.le_of_lt hn)
    _ = Nat.pow 2 (f.precision + f.scale) := (Nat.pow_add 2 f.precision f.scale).symm
    _ ≤ f.limit := Nat.pow_le_pow_right (by decide) hf

end FloatFormat

namespace Binary

variable {f : FloatFormat} {a b : Binary f}

theorem le_iff :
    a.le b = true ↔ ∃ x y, a.position = some x ∧ b.position = some y ∧ x ≤ y := by
  rw [le]
  cases a.position with
  | none => simp
  | some x => cases b.position <;> simp

theorem position_ofQuotient (negative : Bool) (num den : Nat) :
    (ofQuotient f negative num den).position =
      let place : Nat := min (f.round (num * f.one) den) f.limit
      some (if negative then -(place : Int) else place) := by
  dsimp only
  rw [ofQuotient, Magnitude.ofUnits?]
  by_cases hlimit : f.round (num * f.one) den < f.limit
  · rw [dif_pos hlimit, Nat.min_eq_left (Nat.le_of_lt hlimit)]
    rfl
  · rw [dif_neg hlimit, Nat.min_eq_right (Nat.le_of_not_lt hlimit)]
    rfl

theorem position_ofInt {n : Nat} (hn : n < Nat.pow 2 f.precision)
    (hf : f.precision + f.scale ≤ f.overflow) :
    (ofInt f n).position = some ((n * f.one : Nat) : Int) := by
  have hround : f.round (n * f.one * 1) 1 = n * f.one :=
    f.round_of_fits (f.fits_mul_pow hn) Nat.one_pos
  have hlimit := f.mul_one_le_limit hn hf
  have hsign : ¬(n : Int) < 0 := by omega
  rw [Nat.mul_one] at hround
  rw [ofInt, position_ofQuotient, Int.natAbs_natCast]
  dsimp only
  rw [hround, Nat.min_eq_left hlimit, decide_eq_false hsign, if_neg Bool.false_ne_true]

/-- How far from zero a multiple of so many units lies.  What is too great stays so. -/
def multiple (f : FloatFormat) (k units : Nat) : Nat :=
  if units < f.limit then min (f.round (units * k * f.one) f.one) f.limit else f.limit

theorem multiple_zero (k : Nat) : multiple f k 0 = 0 := by
  rw [multiple, Nat.zero_mul, Nat.zero_mul, f.round_zero, Nat.zero_min, if_pos f.limit_pos]

theorem multiple_mono (k : Nat) {m n : Nat} (h : m ≤ n) : multiple f k m ≤ multiple f k n := by
  have hround := f.round_mono (Nat.mul_le_mul_right f.one (Nat.mul_le_mul_right k h)) f.one
  unfold multiple
  split <;> split <;> omega

def scaled (f : FloatFormat) (k : Nat) (x : Int) : Int :=
  if x < 0 then -(multiple f k x.natAbs : Int) else multiple f k x.natAbs

theorem scaled_zero (k : Nat) : scaled f k 0 = 0 := congrArg Int.ofNat (multiple_zero k)

theorem scaled_mono (k : Nat) {x y : Int} (h : x ≤ y) : scaled f k x ≤ scaled f k y := by
  unfold scaled
  by_cases hx : x < 0 <;> by_cases hy : y < 0
  · have hmultiple := multiple_mono (f := f) k (show y.natAbs ≤ x.natAbs by omega)
    rw [if_pos hx, if_pos hy]
    omega
  · rw [if_pos hx, if_neg hy]
    omega
  · omega
  · have hmultiple := multiple_mono (f := f) k (show x.natAbs ≤ y.natAbs by omega)
    rw [if_neg hx, if_neg hy]
    omega

theorem scaled_signed (k : Nat) (negative : Bool) (units : Nat) :
    scaled f k (if negative then -(units : Int) else units) =
      if negative then -(multiple f k units : Int) else multiple f k units := by
  cases negative with
  | false => rw [if_neg Bool.false_ne_true, if_neg Bool.false_ne_true, scaled, if_neg (by omega),
      Int.natAbs_natCast]
  | true =>
    rw [if_pos rfl, if_pos rfl]
    by_cases hzero : units = 0
    · rw [hzero, multiple_zero]
      exact scaled_zero k
    · rw [scaled, if_pos (by omega), Int.natAbs_neg, Int.natAbs_natCast]

theorem position_scale {x : Int} (k : Nat) (h : a.position = some x) :
    (a.scale k).position = some (scaled f k x) := by
  cases a with
  | nan => cases h
  | finite negative size =>
    cases h
    rw [scale, position_ofQuotient, scaled_signed, multiple, if_pos size.bounded]
  | infinite negative =>
    cases h
    rw [scaled_signed, multiple, if_neg (Nat.lt_irrefl _)]
    rfl

theorem scale_le_scale (k : Nat) (h : a.le b = true) : (a.scale k).le (b.scale k) = true := by
  obtain ⟨x, y, hx, hy, hxy⟩ := le_iff.1 h
  exact le_iff.2 ⟨_, _, position_scale k hx, position_scale k hy, scaled_mono k hxy⟩

end Binary

end Automation
