import Automation.Proofs.Instant.Text
import Mathlib.Data.List.Lex
import Mathlib.Data.String.Basic

/-!
# The order of moments is the order of their texts

The texts that rows hold for moments of four-digit years are in the order of the moments
(`Instant.column_lt_iff`), although they are of different lengths.  Each part in front of the fraction
has as many digits in all of them, so the first part that differs decides.  Where a fraction is written
in fewer digits, the sign of the offset stands in place of the next one, and it comes before any digit
and before a point (`Instant.fractionText_lt`).
-/

namespace Automation

/-! ## Dates -/

section Dates

variable {cycle cycle' y y' day day' : Int}

/-- The days of a cycle up to a day of a year are fewer than those up to any later year.  The year has a
day 365 only if it is one longer. -/
theorem day_lt_next (hy : 0 ≤ y ∧ y < 400) (hday : 0 ≤ day ∧ day ≤ 365)
    (hleap : day = 365 → isLeapYear (y + cycle * 400 + 1) = true) {next : Int} (hnext : y < next)
    (hlast : next ≤ 400) :
    365 * y + y / 4 - y / 100 + day <
      if next = 400 then 146097 else 365 * next + next / 4 - next / 100 := by
  have hleap' : day = 365 → (y + 1) % 4 = 0 ∧ ((y + 1) % 100 ≠ 0 ∨ (y + 1) % 400 = 0) := by
    intro h
    have hyear := hleap h
    simp only [isLeapYear, decide_eq_true_eq] at hyear
    omega
  split <;> omega

/-- Of two days that are counted from March, the one with fewer days before it is in an earlier year, or
earlier in the same one. -/
theorem march_lt (hy : 0 ≤ y ∧ y < 400) (hy' : 0 ≤ y' ∧ y' < 400) (hday : 0 ≤ day)
    (hday' : 0 ≤ day' ∧ day' ≤ 365)
    (hleap' : day' = 365 → isLeapYear (y' + cycle' * 400 + 1) = true)
    (h : cycle * 146097 + (365 * y + y / 4 - y / 100) + day <
      cycle' * 146097 + (365 * y' + y' / 4 - y' / 100) + day') :
    y + cycle * 400 < y' + cycle' * 400 ∨ (y + cycle * 400 = y' + cycle' * 400 ∧ day < day') := by
  have hcycle := day_lt_next hy' hday' hleap' hy'.2 (Int.le_refl 400)
  rw [if_pos rfl] at hcycle
  rcases (by omega : cycle < cycle' ∨ cycle = cycle' ∨ cycle' < cycle) with hbefore | rfl | hafter
  · omega
  · rcases (by omega : y < y' ∨ y = y' ∨ y' < y) with hbefore | rfl | hafter
    · omega
    · omega
    · have hyear := day_lt_next hy' hday' hleap' hafter (by omega)
      rw [if_neg (by omega)] at hyear
      omega
  · omega

end Dates

/-- Of two days the first one has the date that comes first. -/
theorem dateOfDays_lt {a b : Int} (h : a < b) :
    (dateOfDays a).1 < (dateOfDays b).1 ∨ (dateOfDays a).1 = (dateOfDays b).1 ∧
      ((dateOfDays a).2.1 < (dateOfDays b).2.1 ∨ (dateOfDays a).2.1 = (dateOfDays b).2.1 ∧
        (dateOfDays a).2.2 < (dateOfDays b).2.2) := by
  obtain ⟨cycle, y, day, hy, hday, -, hdays, hdate⟩ := exists_dayOfYear a
  obtain ⟨cycle', y', day', hy', hday', hleap', hdays', hdate'⟩ := exists_dayOfYear b
  have hsum : cycle * 146097 + (365 * y + y / 4 - y / 100) + day <
      cycle' * 146097 + (365 * y' + y' / 4 - y' / 100) + day' := by omega
  have hmarch := march_lt hy hy' hday.1 hday' hleap' hsum
  obtain ⟨month, hmonth, hrange, hlow, hhigh⟩ := month_of_day hday
  obtain ⟨month', hmonth', hrange', hlow', hhigh'⟩ := month_of_day hday'
  rw [hdate, hdate']
  simp only [marchDate, hmonth, hmonth']
  -- Within a year that starts in March the months follow one another, as do the days of a month.
  clear hmonth hmonth' hdate hdate' hdays hdays' hleap' hsum
  split <;> split <;> split <;> split <;> omega

namespace Instant

def Before (t u : Instant) : Prop :=
  t.seconds < u.seconds ∨ t.seconds = u.seconds ∧ t.nanos < u.nanos

/-! ## Digits -/

section Digits

variable {x y : List Char}

/-- What digits stand for behind a point, counted in so many places. -/
def placed (k : Nat) (s : List Char) : Nat := Nat.ofDigitChars 10 s 0 * 10 ^ (k - s.length)

theorem placed_cons {k : Nat} {s : List Char} (hsk : s.length ≤ k) (c : Char) :
    placed (k + 1) (c :: s) = (c.toNat - '0'.toNat) * 10 ^ k + placed k s := by
  have hvalue : Nat.ofDigitChars 10 (c :: s) 0 =
      (c.toNat - '0'.toNat) * 10 ^ s.length + Nat.ofDigitChars 10 s 0 := by
    rw [Nat.ofDigitChars_cons, Nat.ofDigitChars_eq_ofDigitChars_zero, Nat.mul_zero, Nat.zero_add,
      Nat.mul_comm]
  rw [placed, placed, hvalue, List.length_cons, Nat.add_sub_add_right, Nat.add_mul, Nat.mul_assoc,
    ← Nat.pow_add, Nat.add_sub_cancel' hsk]

theorem placed_lt {k : Nat} {s : List Char} (hs : ∀ c ∈ s, c.isDigit) (hsk : s.length ≤ k) :
    placed k s < 10 ^ k := by
  have hvalue := ofDigitChars_lt hs 0
  rw [Nat.zero_add, Nat.one_mul] at hvalue
  calc placed k s < 10 ^ s.length * 10 ^ (k - s.length) :=
        Nat.mul_lt_mul_of_pos_right hvalue (Nat.pow_pos (by decide))
    _ = 10 ^ k := by rw [← Nat.pow_add, Nat.add_sub_cancel' hsk]

/-- Digits that stand for less come first, if there are as many or if what follows them comes before any
digit. -/
theorem append_lt_of_digits {s t : List Char} {k : Nat} (hs : ∀ c ∈ s, c.isDigit)
    (ht : ∀ c ∈ t, c.isDigit) (hsk : s.length ≤ k) (htk : t.length ≤ k)
    (hlt : placed k s < placed k t)
    (hx : s.length = t.length ∨ ∃ c r, x = c :: r ∧ c < '0') : s ++ x < t ++ y := by
  induction s generalizing t k with
  | nil =>
    cases t with
    | nil => exact absurd hlt (Nat.lt_irrefl _)
    | cons d t =>
      obtain ⟨c, r, rfl, hc⟩ := hx.resolve_left nofun
      have hd := (List.forall_mem_cons.1 ht).1
      simp only [Char.isDigit, Bool.and_eq_true, decide_eq_true_eq] at hd
      exact .rel (lt_of_lt_of_le hc hd.1)
  | cons c s ih =>
    cases t with
    | nil =>
      have hzero : placed k [] = 0 := Nat.zero_mul _
      omega
    | cons d t =>
      obtain ⟨k, rfl⟩ : ∃ j, k = j + 1 := ⟨k - 1, by simp only [List.length_cons] at hsk; omega⟩
      obtain ⟨-, hs'⟩ := List.forall_mem_cons.1 hs
      obtain ⟨hd, ht'⟩ := List.forall_mem_cons.1 ht
      have hsk' : s.length ≤ k := Nat.le_of_succ_le_succ hsk
      have htk' : t.length ≤ k := Nat.le_of_succ_le_succ htk
      rw [placed_cons hsk', placed_cons htk'] at hlt
      rcases lt_trichotomy c d with hbefore | rfl | hafter
      · exact .rel hbefore
      · have hx' : s.length = t.length ∨ ∃ c r, x = c :: r ∧ c < '0' :=
          hx.imp_left fun hlength => Nat.succ.inj hlength
        exact .cons (ih hs' ht' hsk' htk' (Nat.lt_of_add_lt_add_left hlt) hx')
      -- A greater digit counts for more than all digits behind the lesser one.
      · simp only [Char.isDigit, Bool.and_eq_true, decide_eq_true_eq] at hd
        have hdigit : d.toNat - '0'.toNat + 1 ≤ c.toNat - '0'.toNat := by
          have hzero : 48 ≤ d.toNat := hd.1
          have hless : d.toNat < c.toNat := hafter
          show d.toNat - 48 + 1 ≤ c.toNat - 48
          omega
        have hrest := placed_lt ht' htk'
        have hmore := Nat.mul_le_mul_right (10 ^ k) hdigit
        rw [Nat.add_mul, Nat.one_mul] at hmore
        omega

/-- Numbers of as many digits are compared as numbers, and what follows them where they are equal. -/
theorem padded_append_lt {w n m : Nat} (hw : 0 < w) (hn : n < Nat.pow 10 w) (hm : m < Nat.pow 10 w)
    (h : n < m ∨ n = m ∧ x < y) : padded w n ++ x < padded w m ++ y := by
  rcases h with hlt | ⟨rfl, hrest⟩
  · have hplaced : ∀ {n : Nat}, n < Nat.pow 10 w → placed w (padded w n) = n := fun hn => by
      rw [placed, ofDigitChars_padded, length_padded hw hn, Nat.sub_self, Nat.pow_zero, Nat.mul_one]
    have hlength : ∀ {n : Nat}, n < Nat.pow 10 w → (padded w n).length = w := length_padded hw
    exact append_lt_of_digits (fun c => isDigit_of_mem_padded) (fun c => isDigit_of_mem_padded)
      (Nat.le_of_eq (hlength hn)) (Nat.le_of_eq (hlength hm))
      (by rwa [hplaced hn, hplaced hm]) (.inl ((hlength hn).trans (hlength hm).symm))
  · exact List.Lex.append_left _ hrest _

theorem pair_cons_lt {n m : Nat} (hn : n ≤ 60 ∧ m ≤ 60) (c : Char) (h : n < m ∨ n = m ∧ x < y) :
    padded 2 n ++ c :: x < padded 2 m ++ c :: y :=
  padded_append_lt (by decide) (Nat.lt_of_le_of_lt hn.1 (by decide))
    (Nat.lt_of_le_of_lt hn.2 (by decide)) (h.imp_right (And.imp_right .cons))

end Digits

/-! ## Fractions -/

/-- A fraction that is written is a point and digits, as many as it takes. -/
theorem exists_fractionText {n : Nat} (hpos : 0 < n) (hn : n < 1000000000) :
    ∃ ds : List Char, fractionText n = '.' :: ds ∧ (∀ c ∈ ds, c.isDigit) ∧ ds.length ≤ 9 ∧
      placed 9 ds = n := by
  have hdigits : ∀ w, 0 < w → w ≤ 9 → n / 10 ^ (9 - w) < Nat.pow 10 w → n % 10 ^ (9 - w) = 0 →
      (∀ c ∈ padded w (n / 10 ^ (9 - w)), c.isDigit) ∧ (padded w (n / 10 ^ (9 - w))).length ≤ 9 ∧
        placed 9 (padded w (n / 10 ^ (9 - w))) = n := by
    intro w hw hw9 hlt hzeros
    refine ⟨fun c => isDigit_of_mem_padded, (length_padded hw hlt).symm ▸ hw9, ?_⟩
    rw [placed, ofDigitChars_padded, length_padded hw hlt,
      Nat.div_mul_cancel (Nat.dvd_of_mod_eq_zero hzeros)]
  rw [fractionText, if_neg (Nat.ne_of_gt hpos)]
  split
  case isTrue hmillis =>
    exact ⟨_, rfl, hdigits 3 (by decide) (by decide) (by show n / 1000000 < 1000; omega) hmillis⟩
  split
  case isTrue hmicros =>
    exact ⟨_, rfl, hdigits 6 (by decide) (by decide) (by show n / 1000 < 1000000; omega) hmicros⟩
  case isFalse =>
    have hwhole := hdigits 9 (by decide) (by decide) (by show n / 1 < 1000000000; omega) (Nat.mod_one n)
    rw [show n / 10 ^ (9 - 9) = n from Nat.div_one n] at hwhole
    exact ⟨_, rfl, hwhole⟩

/-- A lesser fraction comes first in front of the sign of an offset. -/
theorem fractionText_lt {n m : Nat} (h : n < m) (hm : m < 1000000000) (r r' : List Char) :
    fractionText n ++ '+' :: r < fractionText m ++ '+' :: r' := by
  obtain ⟨ds', htext', hdigits', hlength', hplaced'⟩ := exists_fractionText (by omega) hm
  rw [htext']
  by_cases hzero : n = 0
  · rw [fractionText, if_pos hzero]
    exact .rel (by decide)
  · obtain ⟨ds, htext, hdigits, hlength, hplaced⟩ := exists_fractionText (Nat.pos_of_ne_zero hzero)
      (Nat.lt_trans h hm)
    rw [htext]
    exact .cons (append_lt_of_digits hdigits hdigits' hlength hlength' (by rwa [hplaced, hplaced'])
      (.inr ⟨'+', r, rfl, by decide⟩))

/-! ## Moments -/

/-- What is written in parts of full width comes first if it does by the first part that differs. -/
theorem parts_lt {y m d hour minute second nanos y' m' d' hour' minute' second' nanos' : Nat}
    (hy : y ≤ 9999 ∧ y' ≤ 9999) (hm : m ≤ 60 ∧ m' ≤ 60) (hd : d ≤ 60 ∧ d' ≤ 60)
    (hhour : hour ≤ 60 ∧ hour' ≤ 60) (hminute : minute ≤ 60 ∧ minute' ≤ 60)
    (hsecond : second ≤ 60 ∧ second' ≤ 60) (hnanos : nanos' < 1000000000)
    (h : y < y' ∨ y = y' ∧ (m < m' ∨ m = m' ∧ (d < d' ∨ d = d' ∧ (hour < hour' ∨ hour = hour' ∧
      (minute < minute' ∨ minute = minute' ∧ (second < second' ∨ second = second' ∧
        nanos < nanos')))))) (offset offset' : List Char) :
    padded 4 y ++ '-' :: (padded 2 m ++ '-' :: (padded 2 d ++ 'T' ::
      (padded 2 hour ++ ':' :: (padded 2 minute ++ ':' :: (padded 2 second ++
        (fractionText nanos ++ '+' :: offset)))))) <
    padded 4 y' ++ '-' :: (padded 2 m' ++ '-' :: (padded 2 d' ++ 'T' ::
      (padded 2 hour' ++ ':' :: (padded 2 minute' ++ ':' :: (padded 2 second' ++
        (fractionText nanos' ++ '+' :: offset')))))) := by
  have hpair : ∀ {n}, n ≤ 60 → n < Nat.pow 10 2 := fun hn => Nat.lt_of_le_of_lt hn (by decide)
  have hyear : ∀ {n}, n ≤ 9999 → n < Nat.pow 10 4 := fun hn => Nat.lt_of_le_of_lt hn (by decide)
  refine padded_append_lt (by decide) (hyear hy.1) (hyear hy.2)
    (h.imp_right (And.imp_right fun h => .cons ?_))
  refine pair_cons_lt hm '-' (h.imp_right (And.imp_right fun h => ?_))
  refine pair_cons_lt hd 'T' (h.imp_right (And.imp_right fun h => ?_))
  refine pair_cons_lt hhour ':' (h.imp_right (And.imp_right fun h => ?_))
  refine pair_cons_lt hminute ':' (h.imp_right (And.imp_right fun h => ?_))
  exact padded_append_lt (by decide) (hpair hsecond.1) (hpair hsecond.2)
    (h.imp_right (And.imp_right fun h => fractionText_lt h hnanos _ _))

/-- Of two moments of one day, the time of day of the first one comes first.  A leap second is the second
60 of its minute. -/
theorem timeOfDay_lt {a b n m : Nat} (hn : n < 1000000000 ∨ (n < 2000000000 ∧ a % 60 = 59))
    (h : a < b ∨ a = b ∧ n < m) :
    a / 3600 < b / 3600 ∨ a / 3600 = b / 3600 ∧ (a / 60 % 60 < b / 60 % 60 ∨
      a / 60 % 60 = b / 60 % 60 ∧ (a % 60 + n / 1000000000 < b % 60 + m / 1000000000 ∨
        a % 60 + n / 1000000000 = b % 60 + m / 1000000000 ∧ n % 1000000000 < m % 1000000000)) := by
  omega

theorem column_lt {t u : Instant} (ht : t.Writable) (hu : u.Writable) (h : t.Before u) :
    t.column < u.column := by
  obtain ⟨hmonth, hday, hhour, hminute, hsecond, hnanos⟩ := parts_of_datable ht.datable
  obtain ⟨umonth, uday, uhour, uminute, usecond, unanos⟩ := parts_of_datable hu.datable
  have hyear := ht.year
  have uyear := hu.year
  rw [String.lt_iff_toList_lt, column, column, String.toList_ofList, String.toList_ofList,
    offsetText_eq ht, offsetText_eq hu]
  refine parts_lt (by omega) (by omega) (by omega) (by omega) (by omega) (by omega) unanos ?_ _ _
  have hle : t.seconds.ediv 86400 ≤ u.seconds.ediv 86400 :=
    Int.ediv_le_ediv (by decide) (h.elim Int.le_of_lt fun hsame => Int.le_of_eq hsame.1)
  -- The days decide unless they are the same, and then the time of day.
  rcases Int.lt_or_eq_of_le hle with hless | hsame
  · rcases dateOfDays_lt hless with hyears | ⟨hyears, hdate⟩
    · have hbefore : t.year < u.year := hyears
      exact .inl (by omega)
    · exact .inr ⟨congrArg Int.toNat hyears, hdate.imp_right fun hlater => ⟨hlater.1, .inl hlater.2⟩⟩
  · have hdate : dateOfDays (t.seconds.ediv 86400) = dateOfDays (u.seconds.ediv 86400) := by rw [hsame]
    have hday : t.seconds / 86400 = u.seconds / 86400 := hsame
    have hleap : t.nanos < 1000000000 ∨
        (t.nanos < 2000000000 ∧ (t.seconds % 86400).toNat % 60 = 59) := by
      have hnanos := ht.nanos
      omega
    have hofDay : (t.seconds % 86400).toNat < (u.seconds % 86400).toNat ∨
        (t.seconds % 86400).toNat = (u.seconds % 86400).toNat ∧ t.nanos < u.nanos := by
      rcases h with hseconds | ⟨hseconds, hnanos⟩
      · omega
      · exact .inr ⟨by rw [hseconds], hnanos⟩
    exact .inr ⟨congrArg (fun date => date.1.toNat) hdate, .inr ⟨by rw [hdate], .inr ⟨by rw [hdate],
      timeOfDay_lt hleap hofDay⟩⟩⟩

theorem Before.asymm {t u : Instant} (h : t.Before u) : ¬u.Before t := by
  unfold Before at h ⊢
  omega

theorem before_trichotomy (t u : Instant) : t.Before u ∨ t = u ∨ u.Before t := by
  rcases Int.lt_trichotomy t.seconds u.seconds with hbefore | hsame | hafter
  · exact .inl (.inl hbefore)
  · rcases Nat.lt_trichotomy t.nanos u.nanos with hbefore | hnanos | hafter
    · exact .inl (.inr ⟨hsame, hbefore⟩)
    · exact .inr (.inl (congrArg₂ Instant.mk hsame hnanos))
    · exact .inr (.inr (.inr ⟨hsame.symm, hafter⟩))
  · exact .inr (.inr (.inl hafter))

/-- The order of the texts is that of the moments. -/
theorem column_lt_iff {t u : Instant} (ht : t.Writable) (hu : u.Writable) :
    t.column < u.column ↔ t.Before u := by
  refine ⟨fun h => ?_, column_lt ht hu⟩
  rcases before_trichotomy t u with hbefore | rfl | hafter
  · exact hbefore
  · exact absurd h (lt_irrefl _)
  · exact absurd h (lt_asymm (column_lt hu ht hafter))

theorem column_inj {t u : Instant} (ht : t.Writable) (hu : u.Writable) (h : t.column = u.column) :
    t = u := by
  have hread := ofColumn?_column t ht
  rw [h, ofColumn?_column u hu] at hread
  exact (Option.some.inj hread).symm

end Instant

end Automation
