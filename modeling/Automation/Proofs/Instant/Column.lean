import Automation.Proofs.Instant.Clock
import Automation.Proofs.Number.Numeral
import Automation.Store.Row

/-!
# Moments in a row

`Instant.ofColumn?_column` says that a moment of a four-digit year is read back from the text that a
row holds for it.  Each part of the text has a fixed number of digits, so what follows a part does not
matter to it, but for the fraction, which ends where the offset starts.
-/

namespace Automation

namespace Instant

/-- A moment of a four-digit year.  Its nanoseconds make less than a second, or less than two in the
last second of a minute. -/
structure Writable (t : Instant) : Prop where
  year : 0 ≤ t.year ∧ t.year ≤ 9999
  nanos : t.nanos < 1000000000 ∨ (t.nanos < 2000000000 ∧ t.seconds % 60 = 59)

theorem Writable.datable {t : Instant} (ht : t.Writable) : t.Datable where
  year := by
    have hyear := ht.year
    simp only [isCalendarYear, decide_eq_true_eq]
    omega
  nanos := ht.nanos

section Numbers

variable {w n : Nat} (rest : List Char)

theorem length_padded (hw : 0 < w) (hn : n < Nat.pow 10 w) : (padded w n).length = w := by
  have hle : (Nat.toDigits 10 n).length ≤ w := (Nat.length_toDigits_le_iff (by decide) hw).2 hn
  rw [padded, List.length_append, List.length_replicate]
  omega

theorem isDigit_of_mem_padded {c : Char} (hc : c ∈ padded w n) : c.isDigit :=
  ((Digits.ofNat n).afterZeros (w - (Nat.toDigits 10 n).length)).isDigit c hc

theorem ofDigitChars_padded : Nat.ofDigitChars 10 (padded w n) 0 = n := by
  rw [padded, ofDigitChars_replicate_append, Nat.ofDigitChars_ten_toDigits]

theorem scanNumber_padded {low high : Nat} (hw : 0 < w) (hn : n < Nat.pow 10 w) (hlow : low ≤ w)
    (hhigh : w ≤ high) (hrest : w = high ∨ ∀ c, rest.head? = some c → c.isDigit = false) :
    scanNumber low high (padded w n ++ rest) = .ok (n, rest) := by
  have hlength := length_padded hw hn
  have hnone : (rest.take (high - w)).takeWhile Char.isDigit = [] := by
    rcases hrest with rfl | hrest
    · rw [Nat.sub_self]
      rfl
    · cases hcount : high - w with
      | zero => rfl
      | succ k =>
        cases rest with
        | nil => rfl
        | cons c s =>
          have hc := hrest c rfl
          rw [List.take_succ_cons, List.takeWhile_cons_of_neg (by simp [hc])]
  have htake : ((padded w n ++ rest).take high).takeWhile Char.isDigit = padded w n := by
    rw [List.take_append, hlength, List.take_of_length_le (by omega),
      List.takeWhile_append_of_pos fun c hc => isDigit_of_mem_padded hc, hnone, List.append_nil]
  rw [scanNumber]
  simp only [htake, hlength, ofDigitChars_padded]
  rw [if_pos hlow, List.drop_left' hlength]

theorem scanWithin_padded (hw : 0 < w) (hn : n < Nat.pow 10 w) {low high : Nat} (hlow : low ≤ n)
    (hhigh : n ≤ high) : scanWithin w w low high (padded w n ++ rest) = .ok (n, rest) := by
  rw [scanWithin, scanNumber_padded rest hw hn (Nat.le_refl w) (Nat.le_refl w) (.inl rfl)]
  simp only [bind, Except.bind, within, if_pos (And.intro hlow hhigh)]
  rfl

end Numbers

section Fraction

variable {c : Char} (hc : c.isDigit = false) (rest : List Char)
include hc

theorem scanFraction_padded {w n : Nat} (hw : 0 < w ∧ w ≤ 9) (hn : n < Nat.pow 10 w) :
    scanFraction ('.' :: (padded w n ++ c :: rest)) = .ok (n * Nat.pow 10 (9 - w), c :: rest) := by
  have hscan : scanNumber 1 9 (padded w n ++ c :: rest) = .ok (n, c :: rest) := by
    refine scanNumber_padded _ hw.1 hn hw.1 hw.2 (.inr fun d hd => ?_)
    obtain rfl : c = d := by simpa using hd
    exact hc
  have hcount : (padded w n ++ c :: rest).length - (c :: rest).length = w := by
    rw [List.length_append, length_padded hw.1 hn, Nat.add_sub_cancel]
  simp only [scanFraction, hscan, bind, Except.bind, hcount]
  rw [List.dropWhile_cons_of_neg (by simp [hc])]
  rfl

theorem scanFraction_div {w nanos : Nat} (hw : 0 < w ∧ w ≤ 9)
    (hn : nanos / Nat.pow 10 (9 - w) < Nat.pow 10 w) (hzeros : nanos % Nat.pow 10 (9 - w) = 0) :
    scanFraction ('.' :: (padded w (nanos / Nat.pow 10 (9 - w)) ++ c :: rest)) =
      .ok (nanos, c :: rest) := by
  rw [scanFraction_padded hc rest hw hn, Nat.div_mul_cancel (Nat.dvd_of_mod_eq_zero hzeros)]

theorem scanFraction_fractionText {nanos : Nat} (hn : nanos < 1000000000) (hpoint : c ≠ '.') :
    scanFraction (fractionText nanos ++ c :: rest) = .ok (nanos, c :: rest) := by
  rw [fractionText]
  by_cases hzero : nanos = 0
  · rw [if_pos hzero, hzero, List.nil_append, scanFraction.eq_2]
    intro s heq
    injection heq with hpoint'
    exact hpoint hpoint'
  rw [if_neg hzero]
  by_cases hmillis : nanos % 1000000 = 0
  · rw [if_pos hmillis]
    exact scanFraction_div (w := 3) hc rest (by decide) (by show nanos / 1000000 < 1000; omega) hmillis
  rw [if_neg hmillis]
  by_cases hmicros : nanos % 1000 = 0
  · rw [if_pos hmicros]
    exact scanFraction_div (w := 6) hc rest (by decide) (by show nanos / 1000 < 1000000; omega) hmicros
  · have hnone : nanos / Nat.pow 10 (9 - 9) = nanos := Nat.div_one nanos
    have hwhole : scanFraction ('.' :: (padded 9 (nanos / Nat.pow 10 (9 - 9)) ++ c :: rest)) =
        .ok (nanos, c :: rest) :=
      scanFraction_div hc rest (by decide) (by rw [hnone]; exact hn) (Nat.mod_one nanos)
    rw [hnone] at hwhole
    rw [if_neg hmicros]
    exact hwhole

end Fraction

theorem scanChar_self (c : Char) (rest : List Char) : scanChar c (c :: rest) = .ok ((), rest) :=
  if_pos rfl

theorem scanSeparator_T (rest : List Char) : scanSeparator ('T' :: rest) = .ok ((), rest) := rfl

theorem ofText?_parts {y m d hour minute second nanos : Nat} (hy : y ≤ 9999)
    (hm : 1 ≤ m ∧ m ≤ 12) (hd : 1 ≤ d ∧ d ≤ 31) (hhour : hour ≤ 23) (hminute : minute ≤ 59)
    (hsecond : second ≤ 60) (hnanos : nanos < 1000000000) :
    ofText? (padded 4 y ++ '-' :: (padded 2 m ++ '-' :: (padded 2 d ++ 'T' ::
      (padded 2 hour ++ ':' :: (padded 2 minute ++ ':' :: (padded 2 second ++
        (fractionText nanos ++ ['+', '0', '0', ':', '0', '0']))))))) =
      ofClock y m d hour minute second nanos 0 := by
  have hpair : ∀ n, n ≤ 60 → n < Nat.pow 10 2 := fun n hn => Nat.lt_of_le_of_lt hn (by decide)
  have hfraction := scanFraction_fractionText (c := '+') (by decide) ['0', '0', ':', '0', '0'] hnanos
    (by decide)
  rw [ofText?, scanNumber_padded _ (by decide) (Nat.lt_of_le_of_lt hy (by decide)) (Nat.le_refl 4)
    (Nat.le_refl 4) (.inl rfl)]
  simp only [bind, Except.bind, scanChar_self, scanSeparator_T,
    fun s => scanWithin_padded s (by decide) (hpair m (by omega)) hm.1 hm.2,
    fun s => scanWithin_padded s (by decide) (hpair d (by omega)) hd.1 hd.2,
    fun s => scanWithin_padded s (by decide) (hpair hour (by omega)) (Nat.zero_le _) hhour,
    fun s => scanWithin_padded s (by decide) (hpair minute (by omega)) (Nat.zero_le _) hminute,
    fun s => scanWithin_padded s (by decide) (hpair second hsecond) (Nat.zero_le _) hsecond,
    hfraction]
  rfl

theorem offsetText_eq {t : Instant} (ht : t.Writable) :
    let date := dateOfDays (t.seconds.ediv 86400)
    let ofDay := (t.seconds.emod 86400).toNat
    t.offsetText = padded 4 t.year.toNat ++ '-' :: (padded 2 date.2.1 ++ '-' :: (padded 2 date.2.2 ++
      'T' :: (padded 2 (ofDay / 3600) ++ ':' :: (padded 2 (ofDay / 60 % 60) ++ ':' ::
        (padded 2 (ofDay % 60 + t.nanos / Duration.nanosPerSecond) ++
          (fractionText (t.nanos % Duration.nanosPerSecond) ++ ['+', '0', '0', ':', '0', '0'])))))) := by
  intro date ofDay
  have hyearText : yearText t.year = padded 4 t.year.toNat := if_pos ht.year
  rw [← hyearText]
  rfl

theorem ofText?_offsetText (t : Instant) (ht : t.Writable) : ofText? t.offsetText = .ok t := by
  have hyear := ht.year
  have hyearCast : (t.year.toNat : Int) = t.year := Int.toNat_of_nonneg hyear.1
  obtain ⟨hmonth, hday, hhour, hminute, hsecond, hnanos⟩ := parts_of_datable ht.datable
  rw [offsetText_eq ht, ofText?_parts (by omega) hmonth hday hhour hminute hsecond hnanos, hyearCast]
  exact ofClock_of_datable ht.datable

/-- A moment is read back from a row. -/
theorem ofColumn?_column (t : Instant) (ht : t.Writable) : ofColumn? t.column = some t := by
  rw [ofColumn?, column, String.toList_ofList, ofText?_offsetText t ht]

end Instant

end Automation
