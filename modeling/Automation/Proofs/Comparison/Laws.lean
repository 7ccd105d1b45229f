import Automation.Proofs.Comparison.NumberText
import Automation.Proofs.Number.Rounding
import Automation.Proofs.Text.Split

/-!
# Laws of comparison

Every value counts as a number, so numbers are in a total order (`Binary.le_eq_not_lt`).  Equality is that of
texts; since a value counts as what its text counts as (`Value.position_ofText`), equal values are neither less
nor greater than one another.  `Comparison.holds_coherent` has the laws of all operators together.
-/

namespace Automation

/-! ## Numbers -/

namespace Binary

variable {f : FloatFormat} {a b : Binary f}

theorem isNaN_ofQuotient (negative : Bool) (num den : Nat) :
    (ofQuotient f negative num den).isNaN = false := by
  rw [ofQuotient]
  split <;> rfl

theorem isNaN_toBinary (negative : Bool) (d : Decimal) : (d.toBinary f negative).isNaN = false := by
  rw [Decimal.toBinary]
  split
  · rfl
  split
  · rfl
  split
  · exact isNaN_ofQuotient ..
  · exact isNaN_ofQuotient ..

theorem exists_position (ha : a.isNaN = false) : ∃ x, a.position = some x := by
  cases a with
  | finite negative size => exact ⟨_, rfl⟩
  | infinite negative => exact ⟨_, rfl⟩
  | nan => cases ha

theorem le_eq_not_lt (ha : a.isNaN = false) (hb : b.isNaN = false) : a.le b = !b.lt a := by
  obtain ⟨x, hx⟩ := exists_position ha
  obtain ⟨y, hy⟩ := exists_position hb
  rw [le, lt, hx, hy]
  by_cases h : x ≤ y
  · have hnot : ¬y < x := by omega
    simp [h, hnot]
  · have hlt : y < x := by omega
    simp [h, hlt]

theorem not_lt_of_lt (h : a.lt b = true) : b.lt a = false := by
  rw [lt] at h ⊢
  cases hx : a.position with
  | none => simp [hx] at h
  | some x =>
    cases hy : b.position with
    | none => rfl
    | some y =>
      have hxy : x < y := by simpa [hx, hy] using h
      have hyx : ¬y < x := by omega
      simp [hyx]

theorem le_of_position_eq (ha : a.isNaN = false) (h : a.position = b.position) : a.le b = true := by
  obtain ⟨x, hx⟩ := exists_position ha
  rw [le, ← h, hx]
  exact decide_eq_true (Int.le_refl x)

end Binary

namespace Value

/-- No text whatever, however great its exponent, counts as what is not a number. -/
theorem isNaN_toNumber (v : Value) : v.toNumber.isNaN = false := by
  cases v with
  | number n =>
    have hfinite := n.isFinite_toDouble
    rw [toNumber]
    generalize n.toDouble = x at hfinite
    cases x with
    | finite negative size => rfl
    | infinite negative => rfl
    | nan => cases hfinite
  | string s =>
    rw [toNumber]
    obtain ⟨-, hx⟩ | ⟨-, negative, d, hx⟩ := doubleOf?_numericPrefix (Text.trim s.toList)
    · rw [hx]
      rfl
    · rw [hx]
      exact Binary.isNaN_toBinary negative d
  | null => rfl
  | bool b => rfl
  | array items => rfl
  | object members => rfl

/-- A value counts as a number in the same place as its text does. -/
theorem position_ofText (v : Value) : (ofText v.text).toNumber.position = v.toNumber.position := by
  cases v with
  | null =>
    rw [ofText, toNumber, text, String.toList_ofList]
    rfl
  | bool b =>
    cases b
    · exact congrArg Binary.position (toNumber_of_head (by decide) (by decide))
    · exact congrArg Binary.position (toNumber_of_head (by decide) (by decide))
  | number n => exact n.position_ofText
  | string s => rw [ofText, text, String.ofList_toList]
  | array items => exact congrArg Binary.position (toNumber_of_head (by decide) (by decide))
  | object members => exact congrArg Binary.position (toNumber_of_head (by decide) (by decide))

theorem position_eq_of_text_eq {a b : Value} (h : a.text = b.text) :
    a.toNumber.position = b.toNumber.position := by
  rw [← position_ofText a, h, position_ofText b]

end Value

/-! ## Operators -/

namespace Comparison

variable {a b : Value}

theorem holds_gte (a b : Value) : holds .gte a b = !holds .lt a b :=
  Binary.le_eq_not_lt b.isNaN_toNumber a.isNaN_toNumber

theorem holds_lte (a b : Value) : holds .lte a b = !holds .gt a b :=
  Binary.le_eq_not_lt a.isNaN_toNumber b.isNaN_toNumber

theorem holds_trichotomy (a b : Value) :
    [holds .gt a b, holds .lt a b, holds .gte a b && holds .lte a b].count true = 1 := by
  rw [holds_gte, holds_lte]
  cases hgt : holds .gt a b with
  | true =>
    have hlt : holds .lt a b = false := Binary.not_lt_of_lt hgt
    rw [hlt]
    rfl
  | false => cases holds .lt a b <;> rfl

theorem holds_of_eq (h : holds .eq a b = true) :
    holds .contains a b = true ∧ holds .startsWith a b = true ∧ holds .endsWith a b = true ∧
      holds .gte a b = true ∧ holds .lte a b = true := by
  have htext : a.text = b.text := of_decide_eq_true h
  have hplace := Value.position_eq_of_text_eq htext
  refine ⟨?_, ?_, ?_, ?_, ?_⟩
  · rw [holds, htext]
    exact Text.contains_iff.2 (List.infix_refl b.text)
  · rw [holds, htext]
    exact List.isPrefixOf_iff_prefix.2 (List.prefix_refl b.text)
  · rw [holds, htext]
    exact List.isSuffixOf_iff_suffix.2 (List.suffix_refl b.text)
  · exact Binary.le_of_position_eq b.isNaN_toNumber hplace.symm
  · exact Binary.le_of_position_eq a.isNaN_toNumber hplace

/-- The operators agree with one another on any two values. -/
theorem holds_coherent (a b : Value) :
    a.toNumber.isNaN = false ∧
      [holds .gt a b, holds .lt a b, holds .gte a b && holds .lte a b].count true = 1 ∧
      holds .gte a b = !holds .lt a b ∧ holds .lte a b = !holds .gt a b ∧
      holds .gt a b = holds .lt b a ∧ holds .gte a b = holds .lte b a ∧
      holds .ne a b = !holds .eq a b ∧ holds .notEmpty a b = !holds .empty a b ∧
      (holds .eq a b = true →
        holds .contains a b = true ∧ holds .startsWith a b = true ∧ holds .endsWith a b = true ∧
          holds .gte a b = true ∧ holds .lte a b = true) := by
  have hne : holds .ne a b = !holds .eq a b := by simp [holds]
  exact ⟨a.isNaN_toNumber, holds_trichotomy a b, holds_gte a b, holds_lte a b, rfl, rfl, hne, rfl,
    holds_of_eq⟩

end Comparison

end Automation
