import Automation.Proofs.Number.Decimal
import Automation.Value

/-!
# Number text

A `Numeral` is the text of a number in its parts.  `Number.exists_numeral` says that the text of a
number inside a value is a sign and a numeral, and that the number is what the parts spell: an integer
exactly, and a double because its shortest digits read back.

Only one layout changes the decimal, that of a whole double, which takes zeros up to its point and one
after it.  All others give the digits and the exponent back as they are.
-/

namespace Automation

/-- At least one digit, and nothing else. -/
structure Digits where
  chars : List Char
  ne_nil : chars ≠ []
  isDigit : ∀ c ∈ chars, c.isDigit

namespace Digits

theorem isDigit_zero : '0'.isDigit := by decide

def ofNat (n : Nat) : Digits :=
  ⟨Nat.toDigits 10 n, Nat.toDigits_ne_nil, fun _ =>
    Nat.isDigit_of_mem_toDigits (b := 10) (by decide) (by decide)⟩

def afterZeros (count : Nat) (ds : Digits) : Digits where
  chars := List.replicate count '0' ++ ds.chars
  ne_nil := List.append_ne_nil_of_right_ne_nil _ ds.ne_nil
  isDigit := by
    intro c hc
    rcases List.mem_append.1 hc with h | h
    · rw [List.eq_of_mem_replicate h]
      exact isDigit_zero
    · exact ds.isDigit c h

def beforeZeros (ds : Digits) (count : Nat) : Digits where
  chars := ds.chars ++ List.replicate count '0'
  ne_nil := List.append_ne_nil_of_left_ne_nil ds.ne_nil _
  isDigit := by
    intro c hc
    rcases List.mem_append.1 hc with h | h
    · exact ds.isDigit c h
    · rw [List.eq_of_mem_replicate h]
      exact isDigit_zero

def take (ds : Digits) (count : Nat) (h : 0 < count) : Digits where
  chars := ds.chars.take count
  ne_nil := by
    intro hnil
    rcases List.take_eq_nil_iff.1 hnil with hzero | hempty
    · omega
    · exact ds.ne_nil hempty
  isDigit _ hc := ds.isDigit _ (List.mem_of_mem_take hc)

def drop (ds : Digits) (count : Nat) (h : count < ds.chars.length) : Digits where
  chars := ds.chars.drop count
  ne_nil hnil := Nat.not_le.2 h (List.drop_eq_nil_iff.1 hnil)
  isDigit _ hc := ds.isDigit _ (List.mem_of_mem_drop hc)

end Digits

/-- Number text without its sign: digits, perhaps a point and digits, perhaps an exponent. -/
structure Numeral where
  whole : Digits
  fraction : Option Digits
  exponent : Option (Bool × Digits)
  /-- No digit stands behind a zero at the start. -/
  canonical : whole.chars.head? = some '0' → whole.chars.length = 1

namespace Numeral

def fractionText : Option Digits → List Char
  | some ds => '.' :: ds.chars
  | none => []

def exponentText : Option (Bool × Digits) → List Char
  | some (negative, ds) => 'e' :: (if negative then '-' else '+') :: ds.chars
  | none => []

def text (q : Numeral) : List Char :=
  q.whole.chars ++ (fractionText q.fraction ++ exponentText q.exponent)

def exponentValue (negative : Bool) (ds : Digits) : Int :=
  let n : Int := Nat.ofDigitChars 10 ds.chars 0
  if negative then -n else n

def number? (q : Numeral) (negative : Bool) : Option Number :=
  Number.ofParts? negative q.whole.chars (q.fraction.map Digits.chars)
    (q.exponent.map fun (negative, ds) => exponentValue negative ds)

def decimal (q : Numeral) : Decimal :=
  .ofParts q.whole.chars ((q.fraction.map Digits.chars).getD [])
    ((q.exponent.map fun (negative, ds) => exponentValue negative ds).getD 0)

/-- A numeral with a point or an exponent stands for the double nearest to its decimal. -/
theorem number?_of_pointed (q : Numeral) (h : q.fraction ≠ none ∨ q.exponent ≠ none)
    (negative : Bool) : q.number? negative = Number.ofDouble? (q.decimal.toBinary .double negative) := by
  obtain ⟨whole, fraction, exponent, canonical⟩ := q
  cases fraction with
  | some ds => rfl
  | none =>
    cases exponent with
    | some e => rfl
    | none => simp at h

end Numeral

/-! ## Digits of a number -/

theorem signed_natAbs (n : Int) :
    (if decide (n < 0) = true then -(n.natAbs : Int) else n.natAbs) = n := by
  by_cases hneg : n < 0
  · rw [if_pos (decide_eq_true hneg)]
    omega
  · rw [if_neg (by simpa using hneg)]
    omega

theorem ofDigitChars_replicate_append (count : Nat) (s : List Char) :
    Nat.ofDigitChars 10 (List.replicate count '0' ++ s) 0 = Nat.ofDigitChars 10 s 0 := by
  rw [Nat.ofDigitChars_append, Nat.ofDigitChars_replicate_zero, Nat.mul_zero]

theorem head?_toDigits_ne {n : Nat} (hn : n ≠ 0) : (Nat.toDigits 10 n).head? ≠ some '0' := by
  induction n using Nat.strongRecOn with
  | ind n ih =>
    rw [Nat.toDigits_eq_if (by decide)]
    by_cases h : n < 10
    · rw [if_pos h]
      have hdigit : ∀ k, k < 10 → k ≠ 0 → k.digitChar ≠ '0' := by decide
      simpa using hdigit n h hn
    · rw [if_neg h, List.head?_append]
      have hne : Nat.toDigits 10 (n / 10) ≠ [] := Nat.toDigits_ne_nil
      rw [List.head?_eq_some_head hne, Option.some_or, ← List.head?_eq_some_head hne]
      exact ih (n / 10) (by omega) (by omega)

theorem canonical_toDigits (n : Nat) (h : (Nat.toDigits 10 n).head? = some '0') :
    (Nat.toDigits 10 n).length = 1 := by
  by_cases hn : n = 0
  · rw [hn]
    rfl
  · exact absurd h (head?_toDigits_ne hn)

theorem canonical_beforeZeros {n count : Nat} (hzero : n = 0 → count = 0)
    (h : ((Digits.ofNat n).beforeZeros count).chars.head? = some '0') :
    ((Digits.ofNat n).beforeZeros count).chars.length = 1 := by
  by_cases hn : n = 0
  · rw [Digits.beforeZeros, Digits.ofNat, hzero hn, hn]
    rfl
  · have hhead := head?_toDigits_ne hn
    have hne : Nat.toDigits 10 n ≠ [] := Nat.toDigits_ne_nil
    rw [Digits.beforeZeros, Digits.ofNat, List.head?_append, List.head?_eq_some_head hne,
      Option.some_or, ← List.head?_eq_some_head hne] at h
    exact absurd h hhead

namespace Decimal

variable (d : Decimal)

/-- A decimal and a numeral that stand for the same text and for the same value. -/
structure SpelledBy (q : Numeral) (text : List Char) : Prop where
  text_eq : text = q.text
  pointed : q.fraction ≠ none ∨ q.exponent ≠ none
  value_eq : ∀ (f : FloatFormat) (negative : Bool),
    q.decimal.toBinary f negative = d.toBinary f negative

theorem ofParts_eq {whole fraction : List Char} {exponent : Int}
    (hdigits : Nat.ofDigitChars 10 (whole ++ fraction) 0 = d.digits)
    (hexp : exponent - fraction.length = d.exponent) : ofParts whole fraction exponent = d := by
  rw [ofParts, hdigits, hexp]

theorem exists_numeral_whole (hzero : d.digits = 0 → d.exponent = 0) (he : 0 ≤ d.exponent) :
    ∃ q, d.SpelledBy q
      (Nat.toDigits 10 d.digits ++ List.replicate d.exponent.toNat '0' ++ ['.', '0']) := by
  have hcount : d.digits = 0 → d.exponent.toNat = 0 := fun hd => by rw [hzero hd]; rfl
  have hcanonical := canonical_beforeZeros hcount
  refine ⟨⟨(Digits.ofNat d.digits).beforeZeros d.exponent.toNat, some (.ofNat 0), none, hcanonical⟩,
    by simp [Numeral.text, Numeral.fractionText, Numeral.exponentText, Digits.ofNat,
      Digits.beforeZeros], .inl (by simp), fun f negative => ?_⟩
  have hvalue : Numeral.decimal ⟨(Digits.ofNat d.digits).beforeZeros d.exponent.toNat,
      some (.ofNat 0), none, hcanonical⟩ = ⟨d.digits * Nat.pow 10 (d.exponent.toNat + 1), -1⟩ := by
    have hdigits : Nat.ofDigitChars 10
        (Nat.toDigits 10 d.digits ++ List.replicate d.exponent.toNat '0' ++ ['0']) 0 =
        d.digits * Nat.pow 10 (d.exponent.toNat + 1) := by
      have hone : List.replicate d.exponent.toNat '0' ++ ['0'] =
          List.replicate (d.exponent.toNat + 1) '0' := (List.replicate_succ' ..).symm
      rw [List.append_assoc, hone, Nat.ofDigitChars_append, Nat.ofDigitChars_ten_toDigits,
        Nat.ofDigitChars_replicate_zero, Nat.pow_eq, Nat.mul_comm]
    exact congrArg (Decimal.mk · (-1)) hdigits
  rw [hvalue]
  by_cases hd : d.digits = 0
  · have hd' : d = ⟨0, d.exponent⟩ := by rw [← hd]
    rw [hd, Nat.zero_mul, Magnitude.toBinary_zero, hd', Magnitude.toBinary_zero]
  · rw [toBinary_mul_pow f negative hd]
    congr 2
    omega

theorem exists_numeral_small (hp : d.place + 1 ≤ 0) :
    ∃ q, d.SpelledBy q
      ('0' :: '.' :: (List.replicate (-(d.place + 1)).toNat '0' ++ Nat.toDigits 10 d.digits)) := by
  refine ⟨⟨.ofNat 0, some ((Digits.ofNat d.digits).afterZeros (-(d.place + 1)).toNat), none,
    canonical_toDigits 0⟩, ?_, .inl (by simp), fun f negative => ?_⟩
  · simp [Numeral.text, Numeral.fractionText, Numeral.exponentText, Digits.ofNat, Digits.afterZeros]
  · have hdigits : Nat.ofDigitChars 10 ('0' :: (List.replicate (-(d.place + 1)).toNat '0' ++
        Nat.toDigits 10 d.digits)) 0 = d.digits := by
      rw [← List.cons_append, ← List.replicate_succ, ofDigitChars_replicate_append,
        Nat.ofDigitChars_ten_toDigits]
    have hexp : (0 : Int) - ((List.replicate (-(d.place + 1)).toNat '0' ++
        Nat.toDigits 10 d.digits).length : Nat) = d.exponent := by
      have hplace : d.place = ((Nat.toDigits 10 d.digits).length : Int) + d.exponent - 1 := rfl
      rw [List.length_append, List.length_replicate]
      omega
    exact congrArg (toBinary f negative) (d.ofParts_eq hdigits hexp)

theorem exists_numeral_inner (hp : 0 < d.place + 1)
    (hl : d.place + 1 < (Nat.toDigits 10 d.digits).length) :
    ∃ q, d.SpelledBy q ((Nat.toDigits 10 d.digits).take (d.place + 1).toNat ++
      '.' :: (Nat.toDigits 10 d.digits).drop (d.place + 1).toNat) := by
  have hplace : d.place = ((Nat.toDigits 10 d.digits).length : Int) + d.exponent - 1 := rfl
  have hlt : (d.place + 1).toNat < (Nat.toDigits 10 d.digits).length := by omega
  have hhead : (List.take (d.place + 1).toNat (Nat.toDigits 10 d.digits)).head? =
      (Nat.toDigits 10 d.digits).head? := by
    rw [List.head?_take, if_neg (by omega)]
  refine ⟨⟨(Digits.ofNat d.digits).take (d.place + 1).toNat (by omega),
    some ((Digits.ofNat d.digits).drop (d.place + 1).toNat hlt), none,
    fun h => ?_⟩, ?_, .inl (by simp), fun f negative => ?_⟩
  · have := canonical_toDigits d.digits (hhead.symm.trans h)
    omega
  · simp [Numeral.text, Numeral.fractionText, Numeral.exponentText, Digits.ofNat, Digits.take,
      Digits.drop]
  · have hdigits : Nat.ofDigitChars 10 ((Nat.toDigits 10 d.digits).take (d.place + 1).toNat ++
        (Nat.toDigits 10 d.digits).drop (d.place + 1).toNat) 0 = d.digits := by
      rw [List.take_append_drop, Nat.ofDigitChars_ten_toDigits]
    have hexp : (0 : Int) - ((Nat.toDigits 10 d.digits).drop (d.place + 1).toNat).length =
        d.exponent := by
      rw [List.length_drop]
      omega
    exact congrArg (toBinary f negative) (d.ofParts_eq hdigits hexp)

theorem exponentValue_place :
    Numeral.exponentValue (decide (d.place < 0)) (.ofNat d.place.natAbs) = d.place := by
  have hdigits : Nat.ofDigitChars 10 (Nat.toDigits 10 d.place.natAbs) 0 = d.place.natAbs :=
    Nat.ofDigitChars_ten_toDigits
  rw [Numeral.exponentValue, Digits.ofNat, hdigits]
  exact signed_natAbs d.place

theorem exists_numeral_scientific : ∃ q, d.SpelledBy q d.layoutScientific := by
  have hplace : d.place = ((Nat.toDigits 10 d.digits).length : Int) + d.exponent - 1 := rfl
  have hall : ∀ c ∈ Nat.toDigits 10 d.digits, c.isDigit := (Digits.ofNat d.digits).isDigit
  have hread : Nat.ofDigitChars 10 (Nat.toDigits 10 d.digits) 0 = d.digits :=
    Nat.ofDigitChars_ten_toDigits
  have hexp := d.exponentValue_place
  rw [layoutScientific]
  rcases hds : Nat.toDigits 10 d.digits with _ | ⟨c, _ | ⟨e, r⟩⟩
  · exact absurd hds Nat.toDigits_ne_nil
  · rw [hds] at hplace hall hread
    refine ⟨⟨⟨[c], by simp, hall⟩, none, some (decide (d.place < 0), .ofNat d.place.natAbs),
      fun _ => rfl⟩, ?_, .inr (by simp), fun f negative => ?_⟩
    · simp [Numeral.text, Numeral.fractionText, Numeral.exponentText, Digits.ofNat]
    · refine congrArg (toBinary f negative) (d.ofParts_eq hread ?_)
      show Numeral.exponentValue _ _ - ((0 : Nat) : Int) = _
      rw [hexp, hplace, List.length_cons, List.length_nil]
      omega
  · rw [hds] at hplace hall hread
    have hrest : ∀ x ∈ e :: r, x.isDigit := fun x hx => hall x (List.mem_cons_of_mem c hx)
    refine ⟨⟨⟨[c], by simp, by simpa using hall c (List.mem_cons_self ..)⟩,
      some ⟨e :: r, by simp, hrest⟩, some (decide (d.place < 0), .ofNat d.place.natAbs),
      fun _ => rfl⟩, ?_, .inr (by simp), fun f negative => ?_⟩
    · simp [Numeral.text, Numeral.fractionText, Numeral.exponentText, Digits.ofNat]
    · refine congrArg (toBinary f negative) (d.ofParts_eq hread ?_)
      show Numeral.exponentValue _ _ - ((e :: r).length : Int) = _
      rw [hexp, hplace, List.length_cons]
      omega

/-- However a decimal is laid out with a point, it is spelled by a numeral. -/
theorem exists_numeral_layout (style : DecimalStyle) (hpointed : style.pointed = true)
    (hzero : d.digits = 0 → d.exponent = 0) : ∃ q, d.SpelledBy q (d.layout style) := by
  have hplace : d.place = ((Nat.toDigits 10 d.digits).length : Int) + d.exponent - 1 := rfl
  rw [layout, layoutPositional, hpointed]
  by_cases hstyle : style.positional d.place
  · rw [if_pos hstyle]
    by_cases hsmall : d.place + 1 ≤ 0
    · rw [if_pos hsmall]
      exact d.exists_numeral_small hsmall
    rw [if_neg hsmall]
    by_cases hwhole : ((Nat.toDigits 10 d.digits).length : Int) ≤ d.place + 1
    · rw [if_pos hwhole]
      exact d.exists_numeral_whole hzero (by omega)
    · rw [if_neg hwhole]
      exact d.exists_numeral_inner (by omega) (by omega)
  · rw [if_neg hstyle]
    exact d.exists_numeral_scientific

end Decimal

theorem Magnitude.shortest_exponent {f : FloatFormat} (hf : f.scale ≤ f.overflow)
    (m : Magnitude f) (h : m.shortest.digits = 0) : m.shortest.exponent = 0 := by
  have hread := m.toBinary_shortest hf false
  have hshortest : m.shortest = ⟨0, m.shortest.exponent⟩ := by rw [← h]
  rw [hshortest, toBinary_zero] at hread
  have hunits : m.units = 0 := by
    injection hread with _ hm
    rw [← hm]
    rfl
  rw [shortest, if_pos hunits]

namespace Number

/-- The text of a number is a sign and a numeral that spells the number. -/
theorem exists_numeral (n : Number) : ∃ (negative : Bool) (q : Numeral),
    n.json = (if negative then ['-'] else []) ++ q.text ∧ q.number? negative = some n := by
  cases n with
  | integer n hrange =>
    refine ⟨decide (n < 0), ⟨.ofNat n.natAbs, none, none, canonical_toDigits _⟩, ?_, ?_⟩
    · simp [json, intText, Numeral.text, Numeral.fractionText, Numeral.exponentText, Digits.ofNat]
    · have hdigits : Nat.ofDigitChars 10 (Nat.toDigits 10 n.natAbs) 0 = n.natAbs :=
        Nat.ofDigitChars_ten_toDigits
      show ofParts? _ (Nat.toDigits 10 n.natAbs) none none = _
      simp only [ofParts?, hdigits, signed_natAbs n]
      rw [dif_pos ⟨hrange, fun h => by simp at h; omega⟩]
  | double negative size =>
    obtain ⟨q, htext, hpointed, hvalue⟩ := size.shortest.exists_numeral_layout jsonStyle rfl
      (size.shortest_exponent (by decide))
    refine ⟨negative, q, by rw [json, Magnitude.text, htext], ?_⟩
    rw [q.number?_of_pointed hpointed, hvalue, size.toBinary_shortest (by decide)]
    rfl

end Number

end Automation
