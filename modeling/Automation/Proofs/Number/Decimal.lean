import Automation.Number.Decimal

/-!
# Shortest digits read back

`Magnitude.toBinary_shortest` says that the digits chosen for a value are read as that value.

Of the candidates with few digits each is tried before it is taken, so there is something to prove for
two steps only: the value written out in full, which is taken if no candidate will do, and the zeros
that are dropped from the end of the digits.  Both change a decimal into an equal one, and what a
decimal is read as depends on its value alone (`Decimal.toBinary_mul_ten`).
-/

namespace Automation

namespace FloatFormat

variable {num den k : Nat}

theorem nearest_mul_mul (hk : 0 < k) : nearest (k * num) (k * den) = nearest num den := by
  have hdiv : k * num / (k * den) = num / den := Nat.mul_div_mul_left num den hk
  have hmod : k * num % (k * den) = k * (num % den) := Nat.mul_mod_mul_left k num den
  have htwice : 2 * (k * (num % den)) = k * (2 * (num % den)) := Nat.mul_left_comm ..
  simp only [nearest, hdiv, hmod, htwice, Nat.mul_lt_mul_left hk]

theorem round_mul_mul (f : FloatFormat) (hk : 0 < k) :
    f.round (k * num) (k * den) = f.round num den := by
  have hdiv : k * num / (k * den) = num / den := Nat.mul_div_mul_left num den hk
  simp only [round, hdiv, Nat.mul_assoc, nearest_mul_mul hk]

end FloatFormat

theorem Binary.ofQuotient_mul_mul (f : FloatFormat) (negative : Bool) {num den k : Nat}
    (hk : 0 < k) : ofQuotient f negative (k * num) (k * den) = ofQuotient f negative num den := by
  simp only [ofQuotient, Magnitude.ofUnits?, Nat.mul_assoc, f.round_mul_mul hk]

namespace Decimal

variable {digits : Nat} {exponent : Int}

theorem width_pos (n : Nat) : 0 < width n := Nat.length_toDigits_pos

theorem width_le_iff {n k : Nat} (hk : 0 < k) : width n ≤ k ↔ n < Nat.pow 10 k :=
  Nat.length_toDigits_le_iff (by decide) hk

theorem width_mul_ten (h : digits ≠ 0) : width (10 * digits) = width digits + 1 := by
  have happend := Nat.toDigits_append_toDigits (b := 10) (n := digits) (d := 0) (by decide)
    (by omega) (by decide)
  rw [Nat.add_zero, Nat.toDigits_zero] at happend
  rw [width, ← happend, List.length_append]
  rfl

theorem place_mul_ten (h : digits ≠ 0) :
    place ⟨10 * digits, exponent⟩ = place ⟨digits, exponent + 1⟩ := by
  simp only [place, width_mul_ten h]
  omega

/-- What a decimal is read as does not change when a zero is put after its digits. -/
theorem toBinary_mul_ten (f : FloatFormat) (negative : Bool) (h : digits ≠ 0) :
    toBinary f negative ⟨10 * digits, exponent⟩ =
      toBinary f negative ⟨digits, exponent + 1⟩ := by
  have h10 : 10 * digits ≠ 0 := by omega
  simp only [toBinary, place_mul_ten h, h, h10, false_or]
  by_cases hlow : place ⟨digits, exponent + 1⟩ < -(f.scale : Int) - 1
  · rw [if_pos hlow, if_pos hlow]
  rw [if_neg hlow, if_neg hlow]
  by_cases hhigh : (f.overflow : Int) - f.scale < place ⟨digits, exponent + 1⟩
  · rw [if_pos hhigh, if_pos hhigh]
  rw [if_neg hhigh, if_neg hhigh]
  -- A factor goes to the numerator or to the denominator as the exponent has its sign.
  rcases (by omega : 0 ≤ exponent ∨ exponent = -1 ∨ exponent + 1 < 0) with hpos | hone | hneg
  · have hexp : (exponent + 1).toNat = exponent.toNat + 1 := by omega
    have hnum : 10 * digits * Nat.pow 10 exponent.toNat =
        digits * Nat.pow 10 (exponent.toNat + 1) := by
      rw [Nat.pow_eq, Nat.pow_eq, Nat.pow_succ]
      ac_rfl
    rw [if_pos hpos, if_pos (by omega), hexp, hnum]
  · subst hone
    rw [if_neg (by decide), if_pos (by decide), show digits * Nat.pow 10 _ = digits from Nat.mul_one _]
    show Binary.ofQuotient f negative (10 * digits) (10 * 1) = Binary.ofQuotient f negative _ 1
    rw [Binary.ofQuotient_mul_mul f negative (by decide)]
  · have hexp : (-exponent).toNat = (-(exponent + 1)).toNat + 1 := by omega
    have hden : Nat.pow 10 ((-(exponent + 1)).toNat + 1) =
        10 * Nat.pow 10 (-(exponent + 1)).toNat := by
      rw [Nat.pow_eq, Nat.pow_eq, Nat.pow_succ, Nat.mul_comm]
    rw [if_neg (by omega), if_neg (by omega), hexp, hden]
    exact Binary.ofQuotient_mul_mul f negative (by decide)

theorem toBinary_mul_pow (f : FloatFormat) (negative : Bool) (h : digits ≠ 0) (k : Nat) :
    toBinary f negative ⟨digits * Nat.pow 10 k, exponent⟩ =
      toBinary f negative ⟨digits, exponent + k⟩ := by
  induction k generalizing exponent with
  | zero => rw [show digits * Nat.pow 10 0 = digits from Nat.mul_one _, Int.ofNat_zero, Int.add_zero]
  | succ k ih =>
    have hten : digits * Nat.pow 10 (k + 1) = 10 * (digits * Nat.pow 10 k) := by
      rw [Nat.pow_eq, Nat.pow_eq, Nat.pow_succ]
      ac_rfl
    have hne : digits * Nat.pow 10 k ≠ 0 :=
      Nat.mul_ne_zero h (Nat.ne_of_gt (Nat.pow_pos (by decide)))
    rw [hten, toBinary_mul_ten f negative hne, ih]
    congr 2
    omega

theorem toBinary_strip (f : FloatFormat) (negative : Bool) (digits : Nat) (exponent : Int) :
    (strip digits exponent).toBinary f negative = toBinary f negative ⟨digits, exponent⟩ := by
  fun_induction strip digits exponent with
  | case1 digits exponent h ih =>
    rw [ih, ← toBinary_mul_ten f negative (by omega)]
    congr 2
    omega
  | case2 digits exponent h => rfl

theorem toBinary_sign {f : FloatFormat} {d : Decimal} {m : Magnitude f} (negative : Bool)
    (h : d.toBinary f false = .finite false m) : d.toBinary f negative = .finite negative m := by
  have hquotient : ∀ num den, Binary.ofQuotient f false num den = .finite false m →
      Binary.ofQuotient f negative num den = .finite negative m := by
    intro num den hq
    unfold Binary.ofQuotient at hq ⊢
    cases hu : Magnitude.ofUnits? f (num * f.one) den with
    | none => simp [hu] at hq
    | some size => simpa [hu] using hq
  unfold toBinary at h ⊢
  split at h
  · rename_i hzero
    rw [if_pos hzero]
    simpa using h
  · rename_i hzero
    rw [if_neg hzero]
    split at h
    · cases h
    · rename_i hhigh
      rw [if_neg hhigh]
      split at h
      · rename_i hpos
        rw [if_pos hpos]
        exact hquotient _ _ h
      · rename_i hpos
        rw [if_neg hpos]
        exact hquotient _ _ h

end Decimal

namespace Magnitude

variable {f : FloatFormat} (m : Magnitude f)

/-- A value has fewer digits before its point than the format allows for. -/
theorem width_exact_le (hf : f.scale ≤ f.overflow) :
    Decimal.width m.exact.digits ≤ f.overflow + 1 := by
  rw [Decimal.width_le_iff (Nat.succ_pos _)]
  have hunits : m.units < 2 ^ f.overflow := m.bounded
  calc m.units * Nat.pow 5 f.scale
      < 2 ^ f.overflow * 5 ^ f.scale :=
        Nat.mul_lt_mul_of_pos_right hunits (Nat.pow_pos (by decide))
    _ ≤ 2 ^ f.overflow * 5 ^ f.overflow :=
        Nat.mul_le_mul_left _ (Nat.pow_le_pow_right (by decide) hf)
    _ = 10 ^ f.overflow := (Nat.mul_pow 2 5 f.overflow).symm
    _ ≤ Nat.pow 10 (f.overflow + 1) := Nat.pow_le_pow_right (by decide) (Nat.le_succ _)

theorem readsFrom_exact (hf : f.scale ≤ f.overflow) (hm : m.units ≠ 0) : m.ReadsFrom m.exact := by
  have hdigits : m.exact.digits ≠ 0 :=
    Nat.mul_ne_zero hm (Nat.ne_of_gt (Nat.pow_pos (by decide)))
  have hplace : m.exact.place = (Decimal.width m.exact.digits : Int) - f.scale - 1 := rfl
  have hwidth := m.width_exact_le hf
  have hpos := Decimal.width_pos m.exact.digits
  have hhigh : ¬(f.overflow : Int) - f.scale < m.exact.place := by omega
  rw [ReadsFrom, Decimal.toBinary, if_neg (by omega), if_neg hhigh]
  rcases Nat.eq_zero_or_pos f.scale with hzero | hscale
  · have hexp : m.exact.exponent = 0 := by simp [exact, hzero]
    have hone : f.one = 1 := by simp [FloatFormat.one, hzero]
    have hfive : m.exact.digits = m.units := by simp [exact, hzero]
    have hunits : ofUnits? f (m.units * 1) 1 = some m := ofUnits?_units m (by decide)
    have hnum : m.units * Nat.pow 10 (0 : Int).toNat = m.units := Nat.mul_one _
    rw [if_pos (by omega), hexp, hfive, hnum, Binary.ofQuotient, hone, hunits]
  · have hexp : m.exact.exponent = -(f.scale : Int) := rfl
    have hneg : (- -(f.scale : Int)).toNat = f.scale := by omega
    have hnum : m.exact.digits * f.one = m.units * Nat.pow 10 f.scale := by
      rw [exact, FloatFormat.one, Nat.mul_assoc]
      congr 1
      rw [Nat.pow_eq, Nat.pow_eq, Nat.pow_eq, ← Nat.mul_pow]
    have hunits : ofUnits? f (m.units * Nat.pow 10 f.scale) (Nat.pow 10 f.scale) = some m :=
      ofUnits?_units m (Nat.pow_pos (by decide))
    rw [if_neg (by omega), hexp, hneg, Binary.ofQuotient, hnum, hunits]

theorem of_first_or_second {α : Type} {p : α → Prop} [DecidablePred p] {first second x : α}
    (h : (if p first then some first else if p second then some second else none) = some x) :
    p x := by
  by_cases hfirst : p first
  · rw [if_pos hfirst] at h
    rwa [← Option.some.inj h]
  · rw [if_neg hfirst] at h
    by_cases hsecond : p second
    · rw [if_pos hsecond] at h
      rwa [← Option.some.inj h]
    · rw [if_neg hsecond] at h
      cases h

theorem readsFrom_of_withDigits? {count : Nat} {d : Decimal} (h : m.withDigits? count = some d) :
    m.ReadsFrom d :=
  of_first_or_second h

theorem toBinary_zero (negative : Bool) (exponent : Int) :
    Decimal.toBinary f negative ⟨0, exponent⟩ = .finite negative .zero := by
  rw [Decimal.toBinary, if_pos (Or.inl rfl)]

/-- The shortest digits of a value are read as the value. -/
theorem toBinary_shortest (hf : f.scale ≤ f.overflow) (negative : Bool) :
    m.shortest.toBinary f negative = .finite negative m := by
  by_cases hm : m.units = 0
  · have hzero : m = .zero := by
      cases m
      cases hm
      rfl
    rw [shortest, if_pos hm, toBinary_zero, hzero]
  · apply Decimal.toBinary_sign
    rw [shortest, if_neg hm]
    dsimp only
    rw [Decimal.toBinary_strip]
    show m.ReadsFrom _
    cases hc : (List.range (maxDigits f)).findSome? fun n => m.withDigits? (n + 1) with
    | none => exact m.readsFrom_exact hf hm
    | some d =>
      obtain ⟨count, -, hd⟩ := List.exists_of_findSome?_eq_some hc
      exact m.readsFrom_of_withDigits? hd

end Magnitude

end Automation
