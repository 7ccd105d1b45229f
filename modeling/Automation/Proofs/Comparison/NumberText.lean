import Automation.Proofs.Comparison.Beginning
import Automation.Proofs.Number.Numeral
import Automation.Proofs.Text.Blank

/-!
# Texts count as what they are the texts of

The text of a number counts as a number that is equal to it (`Number.position_ofText`).  It is a sign and a
numeral, which is taken as a whole and spells the number: an integer has few enough digits to be rounded like
any whole number, and of a double these are the shortest digits, laid out without an exponent.

The texts of all other values that are no strings begin with a character that no number begins with.
-/

namespace Automation

/-! ## What is taken as a whole -/

section Closed

variable {c : Char} {s : List Char}

theorem IsClosed.head (h : IsClosed (c :: s)) : c.isDigit = true ∨ c = '.' ∨ c = '+' ∨ c = '-' := by
  by_cases hc : c = '+' ∨ c = '-'
  · exact .inr (.inr hc)
  · have hhead : ∀ d, (c :: s).head? = some d → ¬(d = '+' ∨ d = '-') := by
      intro d hd
      obtain rfl : c = d := by simpa using hd
      exact hc
    obtain hdigit | ⟨hpoint, -, -⟩ | ⟨-, hdigit, -⟩ := ((isClosed_unsigned_iff hhead).1 h).head
    · exact .inl hdigit
    · exact .inr (.inl hpoint)
    · cases hdigit

theorem IsClosed.trim_eq (h : IsClosed s) : Text.trim s = s := by
  cases s with
  | nil => rfl
  | cons c s =>
    have hc : Text.isBlank c = false := by
      obtain hdigit | rfl | rfl | rfl := h.head
      · exact Text.not_blank_of_isDigit hdigit
      all_goals rfl
    obtain ⟨r, d, hlast, hd⟩ := h.2
    rw [Text.trim, Text.trimStart_cons hc, hlast, Text.trimEnd_concat (Text.not_blank_of_isDigit hd)]

theorem IsClosed.numericPrefix_eq (h : IsClosed s) : numericPrefix s = s := by
  have hself : IsLongest IsClosed s s := ⟨List.prefix_refl s, h, fun v hv _ => hv.length_le⟩
  obtain hlongest | ⟨hnone, -⟩ := numericPrefix_longest s
  · exact hlongest.unique hself
  · exact absurd h (hnone s hself.begins)

theorem toNumber_of_closed (h : IsClosed s) {x : Double} (hx : doubleOf? s = some x) :
    (Value.ofText s).toNumber = x := by
  rw [Value.ofText, Value.toNumber, String.toList_ofList, h.trim_eq, h.numericPrefix_eq, hx]
  rfl

theorem toNumber_of_head (hblank : Text.isBlank c = false)
    (hc : ¬(c.isDigit = true ∨ c = '.' ∨ c = '+' ∨ c = '-')) :
    (Value.ofText (c :: s)).toNumber = .zero := by
  obtain ⟨r, hr⟩ := Text.exists_trim_cons hblank s
  have hnil : numericPrefix (c :: r) = [] := by
    obtain h | ⟨-, h⟩ := numericPrefix_longest (c :: r)
    · obtain hp | ⟨p, hp, -⟩ := List.prefix_cons_iff.1 h.begins
      · exact hp
      · exact absurd (hp ▸ h.holds).head hc
    · exact h
  rw [Value.ofText, Value.toNumber, String.toList_ofList, hr, hnil]
  rfl

end Closed

/-! ## Numerals -/

theorem isSign_minus (negative : Bool) : IsSign (if negative then ['-'] else []) := by
  cases negative
  · exact .inl rfl
  · exact .inr (.inr rfl)

namespace Numeral

variable (q : Numeral)

theorem exponentText_eq_nil_or (e : Option (Bool × Digits)) :
    exponentText e = [] ∨ IsExponent (exponentText e) := by
  obtain _ | ⟨negative, ds⟩ := e
  · exact .inl rfl
  · have hsign : IsSign [if negative then '-' else '+'] := isSign_singleton (by cases negative <;> simp)
    exact .inr ⟨'e', _, ds.chars, .inl rfl, hsign, ds.isDigit, ds.ne_nil, rfl⟩

theorem scaleOf?_exponentText (e : Option (Bool × Digits)) :
    scaleOf? (exponentText e) =
      some ((e.map fun (negative, ds) => exponentValue negative ds).getD 0) := by
  obtain _ | ⟨negative, ds⟩ := e
  · rfl
  · have hall : ds.chars.all Char.isDigit = true := List.all_eq_true.2 ds.isDigit
    have hsplit : splitSign ((if negative then '-' else '+') :: ds.chars) = (negative, ds.chars) := by
      cases negative <;> rfl
    rw [exponentText, scaleOf?, if_pos (.inl rfl), exponentOf?, hsplit]
    exact if_neg (by simp [ds.ne_nil, hall])

theorem doubleOf?_text (negative : Bool) :
    doubleOf? ((if negative then ['-'] else []) ++ q.text) =
      some (q.decimal.toBinary .double negative) := by
  have hsign := isSign_minus negative
  have hminus : decide ((if negative then ['-'] else []) = ['-']) = negative := by
    cases negative <;> rfl
  have hx := exponentText_eq_nil_or q.exponent
  have hscale := scaleOf?_exponentText q.exponent
  rw [text]
  cases hf : q.fraction with
  | none =>
    rw [fractionText, List.nil_append, doubleOf?_whole hsign q.whole.isDigit q.whole.ne_nil hx, hscale,
      hminus, decimal, hf]
    rfl
  | some ds =>
    rw [fractionText, List.cons_append,
      doubleOf?_pointed hsign q.whole.isDigit ds.isDigit (.inl q.whole.ne_nil) hx, hscale, hminus,
      decimal, hf]
    rfl

theorem endsInDigit_text : EndsInDigit q.text := by
  have hdigits : ∀ ds : Digits, EndsInDigit ds.chars := fun ds =>
    endsInDigit_of_allDigits ds.isDigit ds.ne_nil
  rw [text]
  cases q.exponent with
  | some e =>
    obtain ⟨negative, ds⟩ := e
    refine endsInDigit_append (endsInDigit_append ?_)
    exact endsInDigit_append (r := ['e', _]) (hdigits ds)
  | none =>
    rw [exponentText, List.append_nil]
    cases q.fraction with
    | none =>
      rw [fractionText, List.append_nil]
      exact hdigits q.whole
    | some ds => exact endsInDigit_append (endsInDigit_append (r := ['.']) (hdigits ds))

theorem isClosed_text (negative : Bool) : IsClosed ((if negative then ['-'] else []) ++ q.text) := by
  have hmantissa : IsMantissa (q.whole.chars ++ fractionText q.fraction) := by
    cases q.fraction with
    | none =>
      rw [fractionText, List.append_nil]
      exact .whole q.whole.isDigit q.whole.ne_nil
    | some ds => exact .pointed q.whole.isDigit ds.isDigit (.inl q.whole.ne_nil)
  have hunsigned : IsUnsigned q.text :=
    ⟨_, _, hmantissa, exponentText_eq_nil_or q.exponent, (List.append_assoc ..).symm⟩
  exact ⟨⟨_, _, isSign_minus negative, hunsigned, rfl⟩, endsInDigit_append q.endsInDigit_text⟩

theorem toNumber_text (negative : Bool) :
    (Value.ofText ((if negative then ['-'] else []) ++ q.text)).toNumber =
      q.decimal.toBinary .double negative :=
  toNumber_of_closed (q.isClosed_text negative) (q.doubleOf?_text negative)

end Numeral

/-! ## Whole numbers -/

theorem Decimal.toBinary_ofNat {f : FloatFormat} {n k : Nat} (hn : n < Nat.pow 10 k) (hk : 0 < k)
    (hf : k + f.scale ≤ f.overflow) (negative : Bool) :
    toBinary f negative ⟨n, 0⟩ = .ofQuotient f negative n 1 := by
  have hwidth : width n ≤ k := (width_le_iff hk).2 hn
  have hpos := width_pos n
  have hplace : place ⟨n, 0⟩ = (width n : Int) - 1 := by rw [place, Int.add_zero]
  by_cases hzero : n = 0
  · have hunits : Magnitude.ofUnits? f (0 * f.one) 1 = some .zero := by
      rw [Nat.zero_mul]
      exact Magnitude.ofUnits?_units .zero Nat.one_pos
    rw [hzero, Magnitude.toBinary_zero, Binary.ofQuotient, hunits]
  · have hlow : ¬(n = 0 ∨ place ⟨n, 0⟩ < -(f.scale : Int) - 1) := by omega
    have hhigh : ¬(f.overflow : Int) - f.scale < place ⟨n, 0⟩ := by omega
    rw [toBinary, if_neg hlow, if_neg hhigh, if_pos (Int.le_refl 0)]
    show Binary.ofQuotient f negative (n * 1) 1 = _
    rw [Nat.mul_one]

theorem toNumber_intText {i : Int} (hi : i.natAbs < Nat.pow 10 20) :
    (Value.ofText (Number.intText i)).toNumber = .ofInt .double i := by
  have htext : Number.intText i = (if decide (i < 0) then ['-'] else []) ++
      Numeral.text ⟨.ofNat i.natAbs, none, none, canonical_toDigits _⟩ := by
    simp [Number.intText, Numeral.text, Numeral.fractionText, Numeral.exponentText, Digits.ofNat]
  have hdigits : Nat.ofDigitChars 10 (Nat.toDigits 10 i.natAbs ++ []) 0 = i.natAbs := by
    rw [List.append_nil, Nat.ofDigitChars_ten_toDigits]
  have hdecimal : Numeral.decimal ⟨.ofNat i.natAbs, none, none, canonical_toDigits _⟩ = ⟨i.natAbs, 0⟩ :=
    Decimal.ofParts_eq ⟨i.natAbs, 0⟩ hdigits rfl
  rw [htext, Numeral.toNumber_text, hdecimal, Decimal.toBinary_ofNat hi (by decide) (by decide)]
  rfl

theorem Magnitude.position_ofInt_whole {f : FloatFormat} {m : Magnitude f} (hm : m.isWhole = true)
    (negative : Bool) :
    (Binary.ofInt f (if negative then -(m.whole : Int) else m.whole)).position =
      (Binary.finite negative m).position := by
  have hunits : m.whole * f.one = m.units :=
    Nat.div_mul_cancel (Nat.dvd_of_mod_eq_zero (of_decide_eq_true hm))
  have hself : ofUnits? f (m.whole * f.one) 1 = some m := by
    have h := ofUnits?_units m Nat.one_pos
    rwa [Nat.mul_one, ← hunits] at h
  have hofInt : ∀ i : Int, i.natAbs = m.whole → Binary.ofInt f i = .finite (i < 0) m := by
    intro i hi
    rw [Binary.ofInt, Binary.ofQuotient, hi, hself]
  cases negative with
  | false =>
    rw [if_neg Bool.false_ne_true, hofInt _ (Int.natAbs_natCast _), decide_eq_false (by omega)]
  | true =>
    rw [if_pos rfl, hofInt _ (by omega)]
    by_cases hzero : m.whole = 0
    · have hnone : m.units = 0 := by rw [← hunits, hzero, Nat.zero_mul]
      simp [Binary.position, hzero, hnone]
    · rw [decide_eq_true (by omega)]

/-! ## Doubles without an exponent -/

namespace Decimal

variable (d : Decimal)

theorem exists_numeral_integral (hzero : d.digits = 0 → d.exponent = 0) (he : 0 ≤ d.exponent) :
    ∃ q : Numeral, Nat.toDigits 10 d.digits ++ List.replicate d.exponent.toNat '0' = q.text ∧
      ∀ (f : FloatFormat) (negative : Bool), q.decimal.toBinary f negative = d.toBinary f negative := by
  have hcount : d.digits = 0 → d.exponent.toNat = 0 := fun hd => by rw [hzero hd]; rfl
  have hcanonical := canonical_beforeZeros hcount
  refine ⟨⟨(Digits.ofNat d.digits).beforeZeros d.exponent.toNat, none, none, hcanonical⟩, ?_,
    fun f negative => ?_⟩
  · simp [Numeral.text, Numeral.fractionText, Numeral.exponentText, Digits.ofNat, Digits.beforeZeros]
  · have hvalue : Nat.ofDigitChars 10
        (Nat.toDigits 10 d.digits ++ List.replicate d.exponent.toNat '0' ++ []) 0 =
        d.digits * Nat.pow 10 d.exponent.toNat := by
      rw [List.append_nil, Nat.ofDigitChars_append, Nat.ofDigitChars_ten_toDigits,
        Nat.ofDigitChars_replicate_zero, Nat.pow_eq, Nat.mul_comm]
    have hexp : (0 : Int) - ([] : List Char).length = 0 := rfl
    have hdecimal := ofParts_eq ⟨d.digits * Nat.pow 10 d.exponent.toNat, 0⟩ hvalue hexp
    refine (congrArg (toBinary f negative) hdecimal).trans ?_
    by_cases hd : d.digits = 0
    · have hd' : d = ⟨0, d.exponent⟩ := by rw [← hd]
      rw [hd, Nat.zero_mul, Magnitude.toBinary_zero, hd', Magnitude.toBinary_zero]
    · rw [toBinary_mul_pow f negative hd]
      congr 2
      omega

/-- Without an exponent and without a point behind a whole number a decimal is spelled by a numeral. -/
theorem exists_numeral_plain (hzero : d.digits = 0 → d.exponent = 0) :
    ∃ q : Numeral, d.layout .plain = q.text ∧
      ∀ (f : FloatFormat) (negative : Bool), q.decimal.toBinary f negative = d.toBinary f negative := by
  have hplace : d.place = ((Nat.toDigits 10 d.digits).length : Int) + d.exponent - 1 := rfl
  have hlayout : d.layout .plain = d.layoutPositional false := rfl
  rw [hlayout, layoutPositional]
  by_cases hsmall : d.place + 1 ≤ 0
  · obtain ⟨q, hq⟩ := d.exists_numeral_small hsmall
    rw [if_pos hsmall]
    exact ⟨q, hq.text_eq, hq.value_eq⟩
  rw [if_neg hsmall]
  by_cases hwhole : ((Nat.toDigits 10 d.digits).length : Int) ≤ d.place + 1
  · rw [if_pos hwhole, if_neg Bool.false_ne_true, List.append_nil]
    exact d.exists_numeral_integral hzero (by omega)
  · obtain ⟨q, hq⟩ := d.exists_numeral_inner (by omega) (by omega)
    rw [if_neg hwhole]
    exact ⟨q, hq.text_eq, hq.value_eq⟩

end Decimal

theorem Magnitude.toNumber_plain (m : Magnitude .double) (negative : Bool) :
    (Value.ofText (m.text .plain negative)).toNumber = .finite negative m := by
  obtain ⟨q, htext, hvalue⟩ := m.shortest.exists_numeral_plain (m.shortest_exponent (by decide))
  rw [Magnitude.text, htext, Numeral.toNumber_text, hvalue, m.toBinary_shortest (by decide)]

/-- The text of a number counts as a number that is neither less nor greater.  Negative zero alone does not
come back: its text is that of zero. -/
theorem Number.position_ofText (n : Number) :
    (Value.ofText n.text).toNumber.position = n.toDouble.position := by
  cases n with
  | integer i hrange =>
    have hi : i.natAbs < Nat.pow 10 20 := by
      have hpow : Nat.pow 10 20 = 100000000000000000000 := rfl
      omega
    rw [text, toNumber_intText hi, toDouble]
  | double negative size =>
    by_cases hwhole : size.isWhole = true ∧ size.whole < 1000000000000000
    · have hi : (if negative then -(size.whole : Int) else size.whole).natAbs < Nat.pow 10 20 := by
        have hpow : Nat.pow 10 20 = 100000000000000000000 := rfl
        split <;> omega
      rw [text, if_pos hwhole, toNumber_intText hi, Magnitude.position_ofInt_whole hwhole.1, toDouble]
    · rw [text, if_neg hwhole, Magnitude.toNumber_plain, toDouble]

end Automation
