import Automation.Proofs.Instant.Calendar

/-!
# Moments that a clock shows

A clock shows a date and a time at some offset from UTC, and `Instant.ofClock` gives the moment at which
it does.  What it gives is a moment that a clock in UTC can show (`datable_of_ofClock`), and a clock in
UTC that shows such a moment shows no other (`ofClock_of_datable`).
-/

namespace Automation.Instant

/-- A moment that a clock in UTC can show: its year is one of the calendar, and its nanoseconds make less
than a second, or less than two in the last second of a minute. -/
structure Datable (t : Instant) : Prop where
  year : isCalendarYear t.year = true
  nanos : t.nanos < 1000000000 ∨ (t.nanos < 2000000000 ∧ t.seconds % 60 = 59)

variable {t : Instant}

/-- The nanoseconds of a moment make no second, or one in the last second of a minute. -/
theorem Datable.carry (ht : t.Datable) :
    (t.nanos / Duration.nanosPerSecond = 0 ∧ t.nanos % Duration.nanosPerSecond = t.nanos) ∨
      (t.nanos / Duration.nanosPerSecond = 1 ∧
        t.nanos % Duration.nanosPerSecond + Duration.nanosPerSecond = t.nanos ∧
        t.seconds % 60 = 59) := by
  have hnanos := ht.nanos
  simp only [Duration.nanosPerSecond]
  omega

theorem daysInMonth_le (y : Int) (m : Nat) : daysInMonth y m ≤ 31 := by
  rw [daysInMonth]
  split
  · split <;> decide
  · split <;> decide

/-- The parts of what a clock in UTC shows are such as a text has. -/
theorem parts_of_datable (ht : t.Datable) :
    let date := dateOfDays (t.seconds.ediv 86400)
    let ofDay := (t.seconds.emod 86400).toNat
    (1 ≤ date.2.1 ∧ date.2.1 ≤ 12) ∧ (1 ≤ date.2.2 ∧ date.2.2 ≤ 31) ∧ ofDay / 3600 ≤ 23 ∧
      ofDay / 60 % 60 ≤ 59 ∧ ofDay % 60 + t.nanos / Duration.nanosPerSecond ≤ 60 ∧
      t.nanos % Duration.nanosPerSecond < 1000000000 := by
  intro date ofDay
  obtain ⟨hmonth, hday, hlast⟩ := dateOfDays_valid (t.seconds.ediv 86400)
  have hofDay : ofDay < 86400 := by
    have hless := Int.emod_lt_of_pos t.seconds (show (0 : Int) < 86400 by decide)
    show (t.seconds % 86400).toNat < 86400
    omega
  have hsecond : ofDay % 60 + t.nanos / Duration.nanosPerSecond ≤ 60 := by
    rcases ht.carry with ⟨hnone, -⟩ | ⟨hone, -⟩ <;> omega
  exact ⟨hmonth, ⟨hday, Nat.le_trans hlast (daysInMonth_le _ _)⟩, by omega, by omega, hsecond,
    Nat.mod_lt t.nanos (by decide)⟩

/-- A clock in UTC shows each moment by its date and the time that has passed since midnight. -/
theorem shownAt_of_datable (ht : t.Datable) :
    let date := dateOfDays (t.seconds.ediv 86400)
    let ofDay := (t.seconds.emod 86400).toNat
    shownAt date.1 date.2.1 date.2.2 (ofDay / 3600) (ofDay / 60 % 60)
      (ofDay % 60 + t.nanos / Duration.nanosPerSecond) (t.nanos % Duration.nanosPerSecond) 0 = t := by
  intro date ofDay
  have hdate := daysOfDate_dateOfDays (t.seconds.ediv 86400)
  have hseconds : t.seconds.ediv 86400 * 86400 + t.seconds.emod 86400 = t.seconds :=
    Int.ediv_mul_add_emod ..
  have hofDay : (ofDay : Int) = t.seconds.emod 86400 :=
    Int.toNat_of_nonneg (Int.emod_nonneg _ (by decide))
  simp only [shownAt, date, hdate, Int.sub_zero]
  rcases ht.carry with ⟨hnone, hrest⟩ | ⟨hone, hrest, hlast⟩
  · rw [hnone, hrest, if_neg (by omega)]
    show Instant.mk _ _ = Instant.mk t.seconds t.nanos
    congr 1
    omega
  · rw [hone, hrest, if_pos (by omega)]
    show Instant.mk _ _ = Instant.mk t.seconds t.nanos
    congr 1
    omega

theorem ofClock_of_datable (ht : t.Datable) :
    let date := dateOfDays (t.seconds.ediv 86400)
    let ofDay := (t.seconds.emod 86400).toNat
    ofClock date.1 date.2.1 date.2.2 (ofDay / 3600) (ofDay / 60 % 60)
      (ofDay % 60 + t.nanos / Duration.nanosPerSecond) (t.nanos % Duration.nanosPerSecond) 0 =
        .ok t := by
  intro date ofDay
  obtain ⟨-, -, hday⟩ := dateOfDays_valid (t.seconds.ediv 86400)
  have hyear : isCalendarYear date.1 = true := ht.year
  have hshown := shownAt_of_datable ht
  simp only at hshown
  rw [ofClock, if_neg (Nat.not_lt.2 hday), if_neg (by simp [hyear]), if_neg (by decide)]
  simp only [date, ofDay, hshown, if_pos ht.year]
  rfl

/-- Offsets are whole minutes, so the second that a leap second goes with ends a minute in UTC, too. -/
theorem datable_of_ofClock {year : Int} {month day hour minute second nanos : Nat} {offset : Int}
    (hnanos : nanos < 1000000000) (hoffset : offset % 60 = 0)
    (h : ofClock year month day hour minute second nanos offset = .ok t) : t.Datable := by
  rw [ofClock] at h
  by_cases hday : day > daysInMonth year month
  · rw [if_pos hday] at h
    cases h
  rw [if_neg hday] at h
  by_cases hyear : (!isCalendarYear year) = true
  · rw [if_pos hyear] at h
    cases h
  rw [if_neg hyear] at h
  by_cases hrange : offset ≤ -86400 ∨ 86400 ≤ offset
  · rw [if_pos hrange] at h
    cases h
  rw [if_neg hrange] at h
  by_cases hshown : isCalendarYear (shownAt year month day hour minute second nanos offset).year = true
  case neg =>
    simp only [if_neg hshown] at h
    cases h
  case pos =>
    simp only [if_pos hshown] at h
    obtain rfl := Except.ok.inj h
    refine ⟨hshown, ?_⟩
    rw [shownAt]
    split
    · right
      simp only [Duration.nanosPerSecond]
      omega
    · exact .inl hnanos

end Automation.Instant
