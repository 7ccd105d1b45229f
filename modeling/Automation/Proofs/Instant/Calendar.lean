import Automation.Instant

/-!
# The calendar counts back

`daysOfDate_dateOfDays` says that the date of a day is the date of no other day, and
`dateOfDays_valid` that it is a date of the calendar.

A cycle of 400 years is four centuries of 25 times four years.  `exists_quarter` writes a day of the
cycle as a century, a group of four years in it and a day of the group, and from these the year and
the day of the year can be told (`yearOfCycle_eq`).  The last group of a century has no leap day, but
for the last century.
-/

namespace Automation

/-- The year of a day of a cycle.  The corrections take away the leap days that have gone by. -/
def yearOfCycle (o : Int) : Int := (o - o / 1460 + o / 36524 - o / 146096) / 365

/-- The date of a day in a year that is counted from March. -/
def marchDate (year dayOfYear : Int) : Int × Nat × Nat :=
  let monthFromMarch := (5 * dayOfYear + 2) / 153
  let day := dayOfYear - (153 * monthFromMarch + 2) / 5 + 1
  let month := if monthFromMarch < 10 then monthFromMarch + 3 else monthFromMarch - 9
  (year + (if month ≤ 2 then 1 else 0), month.toNat, day.toNat)

theorem dateOfDays_eq (days : Int) :
    dateOfDays days =
      let o := (days + 719468).emod 146097
      marchDate (yearOfCycle o + (days + 719468).ediv 146097 * 400)
        (o - (365 * yearOfCycle o + yearOfCycle o / 4 - yearOfCycle o / 100)) := by
  unfold dateOfDays marchDate yearOfCycle
  rfl

/-- A day of a cycle: its century, its four years in it, and what day it is of these. -/
theorem exists_quarter {o : Int} (h0 : 0 ≤ o) (h1 : o < 146097) :
    ∃ c q s, (0 ≤ c ∧ c < 4) ∧ (0 ≤ q ∧ q < 25) ∧ (0 ≤ s ∧ s < 1461) ∧
      o = 36524 * c + 1461 * q + s ∧ (c < 3 → q = 24 → s < 1460) := by
  rcases (by omega : o / 36524 = 0 ∨ o / 36524 = 1 ∨ o / 36524 = 2 ∨ o / 36524 = 3 ∨ o = 146096)
    with h | h | h | h | h
  · exact ⟨0, o / 1461, o % 1461, by omega⟩
  · exact ⟨1, (o - 36524) / 1461, (o - 36524) % 1461, by omega⟩
  · exact ⟨2, (o - 73048) / 1461, (o - 73048) % 1461, by omega⟩
  · exact ⟨3, (o - 109572) / 1461, (o - 109572) % 1461, by omega⟩
  · exact ⟨3, 24, 1460, by omega⟩

section Quarter

variable {o c q s : Int}

theorem yearOfCycle_eq (hc : 0 ≤ c ∧ c < 4) (hq : 0 ≤ q ∧ q < 25) (hs : 0 ≤ s ∧ s < 1461)
    (ho : o = 36524 * c + 1461 * q + s) (hlast : c < 3 → q = 24 → s < 1460) :
    yearOfCycle o = 100 * c + 4 * q + if s = 1460 then 3 else s / 365 := by
  have hfours : o / 1460 = 25 * c + q + if 24 * c + q + s < 1460 then 0 else 1 := by
    split <;> omega
  have hcenturies : o / 36524 = if o = 146096 then 4 else c := by
    split <;> omega
  have hcycles : o / 146096 = if o = 146096 then 1 else 0 := by
    split <;> omega
  rw [yearOfCycle, hfours, hcenturies, hcycles]
  clear hfours hcenturies hcycles
  split <;> split <;> split <;> omega

end Quarter

/-- A day is a day of a year that is counted from March.  The year has a day 365, which is a leap day,
only if the leap day falls into it. -/
theorem exists_dayOfYear (days : Int) : ∃ cycle y day : Int, (0 ≤ y ∧ y < 400) ∧
    (0 ≤ day ∧ day ≤ 365) ∧ (day = 365 → isLeapYear (y + cycle * 400 + 1) = true) ∧
    days + 719468 = cycle * 146097 + (365 * y + y / 4 - y / 100) + day ∧
    dateOfDays days = marchDate (y + cycle * 400) day := by
  have hdate := dateOfDays_eq days
  have hdays : (days + 719468).ediv 146097 * 146097 + (days + 719468).emod 146097 =
      days + 719468 := Int.ediv_mul_add_emod ..
  have h0 : 0 ≤ (days + 719468).emod 146097 := Int.emod_nonneg _ (by decide)
  have h1 : (days + 719468).emod 146097 < 146097 := Int.emod_lt_of_pos _ (by decide)
  generalize (days + 719468).emod 146097 = o at hdate hdays h0 h1
  generalize (days + 719468).ediv 146097 = cycle at hdate hdays
  obtain ⟨c, q, s, hc, hq, hs, ho, hlast⟩ := exists_quarter h0 h1
  have hyear := yearOfCycle_eq hc hq hs ho hlast
  -- What the year is among the four does not matter from here on.
  obtain ⟨j, hj, hjs, hjlast, hyear⟩ : ∃ j, (0 ≤ j ∧ j ≤ 3) ∧ (0 ≤ s - 365 * j ∧ s - 365 * j ≤ 365) ∧
      (s - 365 * j = 365 → j = 3 ∧ s = 1460) ∧ yearOfCycle o = 100 * c + 4 * q + j := by
    refine ⟨_, ?_, ?_, ?_, hyear⟩ <;> split <;> omega
  have hfours : (100 * c + 4 * q + j) / 4 = 25 * c + q := by omega
  have hcenturies : (100 * c + 4 * q + j) / 100 = c := by omega
  have hday : o - (365 * (100 * c + 4 * q + j) + (25 * c + q) - c) = s - 365 * j := by omega
  refine ⟨cycle, 100 * c + 4 * q + j, s - 365 * j, by omega, hjs, ?_, ?_, ?_⟩
  · intro hleap
    obtain ⟨rfl, hs⟩ := hjlast hleap
    simp only [isLeapYear, decide_eq_true_eq]
    omega
  · rw [hfours, hcenturies]
    omega
  · rw [hdate]
    simp only [hyear, hfours, hcenturies, hday]

section March

variable {cycle y day : Int}

theorem month_of_day (hday : 0 ≤ day ∧ day ≤ 365) :
    ∃ month : Int, (5 * day + 2) / 153 = month ∧ (0 ≤ month ∧ month ≤ 11) ∧
      (153 * month + 2) / 5 ≤ day ∧ day < (153 * (month + 1) + 2) / 5 := by
  refine ⟨_, rfl, ?_⟩
  omega

theorem daysOfDate_marchDate (hy : 0 ≤ y ∧ y < 400) (hday : 0 ≤ day ∧ day ≤ 365) :
    let date := marchDate (y + cycle * 400) day
    daysOfDate date.1 date.2.1 date.2.2 =
      cycle * 146097 + (365 * y + y / 4 - y / 100) + day - 719468 := by
  obtain ⟨month, hmonth, hrange, hlow, -⟩ := month_of_day hday
  have hcycle : (y + cycle * 400).ediv 400 = cycle := by
    show (y + cycle * 400) / 400 = cycle
    omega
  have hofCycle : (y + cycle * 400).emod 400 = y := by
    show (y + cycle * 400) % 400 = y
    omega
  simp only [marchDate, daysOfDate, hmonth]
  by_cases hspring : month < 10
  · have hlate : ¬(month + 3).toNat ≤ 2 := by omega
    have hlate' : ¬month + 3 ≤ 2 := by omega
    have hcast : ((month + 3).toNat : Int) - 3 = month := by omega
    simp only [if_pos hspring, if_neg hlate, if_neg hlate', Int.add_zero, hcast, hcycle, hofCycle]
    omega
  · have hearly : (month - 9).toNat ≤ 2 := by omega
    have hearly' : month - 9 ≤ 2 := by omega
    have hcast : ((month - 9).toNat : Int) + 9 = month := by omega
    simp only [if_neg hspring, if_pos hearly, if_pos hearly', Int.add_sub_cancel, hcast, hcycle,
      hofCycle]
    omega

/-- A date that is counted from March is one of the calendar. -/
theorem marchDate_valid (hday : 0 ≤ day ∧ day ≤ 365)
    (hleap : day = 365 → isLeapYear (y + 1) = true) :
    let date := marchDate y day
    (1 ≤ date.2.1 ∧ date.2.1 ≤ 12) ∧ 1 ≤ date.2.2 ∧ date.2.2 ≤ daysInMonth date.1 date.2.1 := by
  obtain ⟨month, hmonth, hrange, hlow, hhigh⟩ := month_of_day hday
  simp only [marchDate, hmonth]
  clear hmonth
  by_cases hfebruary : month = 11
  · subst hfebruary
    have hday' : (day - (153 * 11 + 2) / 5 + 1).toNat ≤ 29 ∧
        ((day - (153 * 11 + 2) / 5 + 1).toNat = 29 → day = 365) := by omega
    refine ⟨by decide, by omega, ?_⟩
    show _ ≤ if isLeapYear (y + 1) then 29 else 28
    by_cases hl : isLeapYear (y + 1) = true
    · rw [if_pos hl]
      exact hday'.1
    · rw [if_neg hl]
      have hne : day ≠ 365 := fun h => hl (hleap h)
      omega
  · rcases (by omega : month = 0 ∨ month = 1 ∨ month = 2 ∨ month = 3 ∨ month = 4 ∨ month = 5 ∨
        month = 6 ∨ month = 7 ∨ month = 8 ∨ month = 9 ∨ month = 10) with
      rfl | rfl | rfl | rfl | rfl | rfl | rfl | rfl | rfl | rfl | rfl <;>
    · refine ⟨by decide, by omega, ?_⟩
      simp [daysInMonth]
      omega

end March

/-- The date of a day is the date of no other day. -/
theorem daysOfDate_dateOfDays (days : Int) :
    daysOfDate (dateOfDays days).1 (dateOfDays days).2.1 (dateOfDays days).2.2 = days := by
  obtain ⟨cycle, y, day, hy, hday, -, hdays, hdate⟩ := exists_dayOfYear days
  rw [hdate, daysOfDate_marchDate hy hday]
  omega

theorem dateOfDays_valid (days : Int) :
    (1 ≤ (dateOfDays days).2.1 ∧ (dateOfDays days).2.1 ≤ 12) ∧ 1 ≤ (dateOfDays days).2.2 ∧
      (dateOfDays days).2.2 ≤ daysInMonth (dateOfDays days).1 (dateOfDays days).2.1 := by
  obtain ⟨cycle, y, day, -, hday, hleap, -, hdate⟩ := exists_dayOfYear days
  rw [hdate]
  exact marchDate_valid hday hleap

end Automation
