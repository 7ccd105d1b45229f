import Automation.Proofs.Checks
import Automation.Proofs.Instant.Column
import Automation.Proofs.Text.Blank

/-!
# Moments in text

A text is read loosely, with blanks between its parts, fewer digits and any offset, and it is written in
one way.  A moment that has been read can be shown by a clock in UTC (`datable_of_ofLooseText?`), and
each such moment is read back from what is written for it (`ofLooseText?_text`), also where its year has
a sign and more than four digits.
-/

namespace Automation.Instant

open Checks

/-! ## What has been read -/

theorem ofDigitChars_lt {s : List Char} (hs : ∀ c ∈ s, c.isDigit) (init : Nat) :
    Nat.ofDigitChars 10 s init < (init + 1) * Nat.pow 10 s.length := by
  induction s generalizing init with
  | nil => simp
  | cons c s ih =>
    obtain ⟨hc, hs⟩ := List.forall_mem_cons.1 hs
    have hdigit : c.toNat - '0'.toNat ≤ 9 := by
      simp only [Char.isDigit, Bool.and_eq_true, decide_eq_true_eq, UInt32.le_iff_toNat_le] at hc
      have hnine : c.toNat ≤ 57 := hc.2
      show c.toNat - 48 ≤ 9
      omega
    calc Nat.ofDigitChars 10 (c :: s) init
        = Nat.ofDigitChars 10 s (10 * init + (c.toNat - '0'.toNat)) := Nat.ofDigitChars_cons
      _ < (10 * init + (c.toNat - '0'.toNat) + 1) * Nat.pow 10 s.length := ih hs _
      _ ≤ ((init + 1) * 10) * Nat.pow 10 s.length := Nat.mul_le_mul_right _ (by omega)
      _ = (init + 1) * Nat.pow 10 (c :: s).length := by
        rw [Nat.mul_assoc, Nat.mul_comm 10]
        rfl

theorem lt_of_scanNumber {low high n : Nat} {s rest : List Char}
    (h : scanNumber low high s = .ok (n, rest)) :
    s.length - rest.length ≤ high ∧ n < Nat.pow 10 (s.length - rest.length) := by
  rw [scanNumber] at h
  split at h
  · cases h
    have hprefix : ((s.take high).takeWhile Char.isDigit).length ≤ (s.take high).length :=
      (List.takeWhile_prefix _).length_le
    rw [List.length_take] at hprefix
    have hcount : s.length - (s.drop ((s.take high).takeWhile Char.isDigit).length).length =
        ((s.take high).takeWhile Char.isDigit).length := by
      rw [List.length_drop]
      omega
    rw [hcount]
    refine ⟨by omega, ?_⟩
    have hdigits : ∀ c ∈ (s.take high).takeWhile Char.isDigit, c.isDigit :=
      List.all_eq_true.1 List.all_takeWhile
    have hlt := ofDigitChars_lt hdigits 0
    rwa [Nat.zero_add, Nat.one_mul] at hlt
  · split at h <;> cases h

theorem lt_of_scanFraction {nanos : Nat} {s rest : List Char}
    (h : scanFraction s = .ok (nanos, rest)) : nanos < 1000000000 := by
  unfold scanFraction at h
  split at h
  · next s =>
    obtain ⟨⟨n, behind⟩, hn, heq⟩ := bind_eq_ok_iff.1 h
    cases heq
    obtain ⟨hcount, hlt⟩ := lt_of_scanNumber hn
    calc n * Nat.pow 10 (9 - (s.length - behind.length))
        < Nat.pow 10 (s.length - behind.length) * Nat.pow 10 (9 - (s.length - behind.length)) :=
          Nat.mul_lt_mul_of_pos_right hlt (Nat.pow_pos (by decide))
      _ = 1000000000 := by
        rw [Nat.pow_eq, Nat.pow_eq, ← Nat.pow_add, Nat.add_sub_cancel' hcount]
  · cases h
    decide

theorem emod_of_scanOffset {separator : Scan Unit} {s rest : List Char} {offset : Int}
    (h : scanOffset separator s = .ok (offset, rest)) : offset % 60 = 0 := by
  unfold scanOffset at h
  split at h
  · cases h
  · split at h
    · cases h
      rfl
    · split at h
      · simp only [bind_eq_ok_iff, Prod.exists] at h
        obtain ⟨_, _, _, -, _, _, -, tens, _, _, -, h⟩ := h
        split at h
        · cases h
        · obtain ⟨rfl, -⟩ := Prod.mk.inj (Except.ok.inj h)
          split <;> omega
      · cases h

theorem datable_of_ofLooseText? {s : List Char} {t : Instant} (h : ofLooseText? s = .ok t) :
    t.Datable := by
  simp only [ofLooseText?, bind_eq_ok_iff, Prod.exists] at h
  obtain ⟨year, _, -, _, _, -, month, _, -, _, _, -, day, _, -, _, _, -, hour, _, -, _, _, -, minute,
    _, -, _, _, -, second, _, -, nanos, _, hnanos, h⟩ := h
  split at h
  · simp only [bind_eq_ok_iff, Prod.exists] at h
    obtain ⟨offset, _, hoffset, _, -, h⟩ := h
    cases hoffset
    exact datable_of_ofClock (lt_of_scanFraction hnanos) rfl h
  · simp only [bind_eq_ok_iff, Prod.exists] at h
    obtain ⟨offset, _, hoffset, _, -, h⟩ := h
    exact datable_of_ofClock (lt_of_scanFraction hnanos) (emod_of_scanOffset hoffset) h

/-! ## What is written -/

section Written

variable {w n : Nat}

theorem exists_padded_eq (hw : 0 < w) (n : Nat) :
    ∃ v, w ≤ v ∧ n < Nat.pow 10 v ∧ padded w n = padded v n := by
  refine ⟨max w (Nat.toDigits 10 n).length, Nat.le_max_left .., ?_, ?_⟩
  · exact (Nat.length_toDigits_le_iff (by decide) (by omega)).1 (Nat.le_max_right ..)
  · rw [padded, padded]
    congr 2
    omega

theorem exists_padded_cons (w n : Nat) : ∃ c cs, c.isDigit = true ∧ padded w n = c :: cs := by
  cases h : padded w n with
  | nil => exact absurd h ((Digits.ofNat n).afterZeros (w - (Nat.toDigits 10 n).length)).ne_nil
  | cons c cs => exact ⟨c, cs, isDigit_of_mem_padded (h ▸ List.mem_cons_self ..), rfl⟩

theorem trimStart_padded (w n : Nat) (rest : List Char) :
    Text.trimStart (padded w n ++ rest) = padded w n ++ rest := by
  obtain ⟨c, cs, hc, hpadded⟩ := exists_padded_cons w n
  rw [hpadded]
  exact Text.trimStart_cons (Text.not_blank_of_isDigit hc) _

theorem scanLoose_padded (hn : n < 100) {low high : Nat} (hlow : low ≤ n) (hhigh : n ≤ high)
    (rest : List Char) : scanLoose low high (padded 2 n ++ rest) = .ok (n, rest) := by
  rw [scanLoose, trimStart_padded, scanWithin,
    scanNumber_padded rest (by decide) hn (by decide) (Nat.le_refl 2) (.inl rfl)]
  simp only [bind, Except.bind, within, if_pos (And.intro hlow hhigh)]
  rfl

theorem scanLooseChar_self {c : Char} (hc : Text.isBlank c = false) (rest : List Char) :
    scanLooseChar c (c :: rest) = .ok ((), rest) := by
  rw [scanLooseChar, Text.trimStart_cons hc, scanChar_self]

/-- The digits of a year with a sign end where no digit follows. -/
theorem scanWithin_signed (n : Nat) {high : Nat} (hn : n ≤ high) {c : Char} (hc : c.isDigit = false)
    (rest : List Char) :
    scanWithin 1 (padded 4 n ++ c :: rest).length 0 high (padded 4 n ++ c :: rest) =
      .ok (n, c :: rest) := by
  -- A year of more than four digits is written in as many as it has.
  obtain ⟨v, hv, hlt, hpadded⟩ := exists_padded_eq (w := 4) (by decide) n
  have hlength : v ≤ (padded v n ++ c :: rest).length := by
    rw [List.length_append, length_padded (by omega) hlt]
    exact Nat.le_add_right ..
  rw [hpadded, scanWithin, scanNumber_padded _ (by omega) hlt (by omega) hlength (.inr fun d hd => by
    obtain rfl : c = d := by simpa using hd
    exact hc)]
  simp only [bind, Except.bind, within, if_pos (And.intro (Nat.zero_le n) hn)]
  rfl

theorem scanYear_yearText {y : Int} (hy : isCalendarYear y = true) {c : Char}
    (hc : c.isDigit = false) (rest : List Char) :
    scanYear (yearText y ++ c :: rest) = .ok (y, c :: rest) := by
  simp only [isCalendarYear, decide_eq_true_eq] at hy
  rw [yearText]
  by_cases hplain : 0 ≤ y ∧ y ≤ 9999
  · have hlt : y.toNat < Nat.pow 10 4 := by
      show y.toNat < 10000
      omega
    have hscan : scanNumber 1 4 (padded 4 y.toNat ++ c :: rest) = .ok (y.toNat, c :: rest) :=
      scanNumber_padded _ (by decide) hlt (by decide) (Nat.le_refl 4) (.inl rfl)
    have hcast : (y.toNat : Int) = y := Int.toNat_of_nonneg hplain.1
    rw [if_pos hplain, scanYear, trimStart_padded]
    -- What starts with a digit has no sign.
    obtain ⟨d, ds, hd, hpadded⟩ := exists_padded_cons 4 y.toNat
    rw [hpadded] at hscan ⊢
    split
    case h_1 heq =>
      obtain rfl : d = '-' := (List.cons.inj heq).1
      cases hd
    case h_2 heq =>
      obtain rfl : d = '+' := (List.cons.inj heq).1
      cases hd
    case h_3 =>
      rw [hscan]
      exact congrArg (fun year => Except.ok (year, c :: rest)) hcast
  · rw [if_neg hplain]
    by_cases hnegative : y < 0
    · rw [if_pos hnegative, List.cons_append, scanYear, Text.trimStart_cons (by decide)]
      show (scanWithin 1 _ 0 2147483648 _ >>= _) = _
      rw [scanWithin_signed _ (by omega) hc]
      have hcast : -(y.natAbs : Int) = y := by omega
      exact congrArg (fun year => Except.ok (year, c :: rest)) hcast
    · rw [if_neg hnegative, List.cons_append, scanYear, Text.trimStart_cons (by decide)]
      show (scanWithin 1 _ 0 2147483647 _ >>= _) = _
      rw [scanWithin_signed _ (by omega) hc]
      have hcast : (y.natAbs : Int) = y := by omega
      exact congrArg (fun year => Except.ok (year, c :: rest)) hcast

end Written

theorem ofLooseText?_parts {y : Int} {m d hour minute second nanos : Nat}
    (hy : isCalendarYear y = true) (hm : 1 ≤ m ∧ m ≤ 12) (hd : 1 ≤ d ∧ d ≤ 31) (hhour : hour ≤ 23)
    (hminute : minute ≤ 59) (hsecond : second ≤ 60) (hnanos : nanos < 1000000000) :
    ofLooseText? (yearText y ++ '-' :: (padded 2 m ++ '-' :: (padded 2 d ++ 'T' ::
      (padded 2 hour ++ ':' :: (padded 2 minute ++ ':' :: (padded 2 second ++
        (fractionText nanos ++ ['Z']))))))) =
      ofClock y m d hour minute second nanos 0 := by
  have hfraction := scanFraction_fractionText (c := 'Z') (by decide) [] hnanos (by decide)
  rw [ofLooseText?, scanYear_yearText hy (by decide)]
  simp only [bind, Except.bind, scanLooseChar_self (show Text.isBlank '-' = false by decide),
    scanLooseChar_self (show Text.isBlank ':' = false by decide), scanSeparator_T,
    fun s => scanLoose_padded (show m < 100 by omega) hm.1 hm.2 s,
    fun s => scanLoose_padded (show d < 100 by omega) hd.1 hd.2 s,
    fun s => scanLoose_padded (show hour < 100 by omega) (Nat.zero_le _) hhour s,
    fun s => scanLoose_padded (show minute < 100 by omega) (Nat.zero_le _) hminute s,
    fun s => scanLoose_padded (show second < 100 by omega) (Nat.zero_le _) hsecond s, hfraction]
  rfl

theorem ofLooseText?_text {t : Instant} (ht : t.Datable) : ofLooseText? t.text = .ok t := by
  obtain ⟨hmonth, hday, hhour, hminute, hsecond, hnanos⟩ := parts_of_datable ht
  exact (ofLooseText?_parts ht.year hmonth hday hhour hminute hsecond hnanos).trans
    (ofClock_of_datable ht)

end Automation.Instant
