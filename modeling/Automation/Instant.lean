import Automation.Duration
import Automation.Text.Blank

/-!
Moments in time and their RFC 3339 text.

`Instant.ofText?` takes the strict form, `Instant.ofLooseText?` also one with blanks between its
parts, single digits and a signed year.  Both count the text's offset away, so that an instant is
always in UTC; `Instant.text` writes it with as many groups of three fraction digits as it needs.
-/

namespace Automation

/-- A moment: seconds since the start of 1970 in UTC, and nanoseconds, which exceed a second within a
leap second. -/
structure Instant where
  seconds : Int
  nanos : Nat
deriving DecidableEq, Inhabited

inductive InstantError where
  | outOfRange
  | impossible
  | invalid
  | tooShort
  | trailing
deriving DecidableEq

def InstantError.message : InstantError → String
  | outOfRange => "input is out of range"
  | impossible => "no possible date and time matching input"
  | invalid => "input contains invalid characters"
  | tooShort => "premature end of input"
  | trailing => "trailing input"

/-! ## The calendar -/

def isLeapYear (y : Int) : Bool := y % 4 = 0 ∧ (y % 100 ≠ 0 ∨ y % 400 = 0)

def daysInMonth (y : Int) (m : Nat) : Nat :=
  if m = 2 then (if isLeapYear y then 29 else 28)
  else if m = 4 ∨ m = 6 ∨ m = 9 ∨ m = 11 then 30
  else 31

/-- Days from the start of 1970 to a date.  Years are counted from March, so that the leap day is the
last one, and by cycles of 400 years. -/
def daysOfDate (y : Int) (m d : Nat) : Int :=
  let y := if m ≤ 2 then y - 1 else y
  let monthFromMarch : Int := if m ≤ 2 then (m : Int) + 9 else (m : Int) - 3
  let ofCycle := y.emod 400
  let dayOfYear := (153 * monthFromMarch + 2) / 5 + d - 1
  y.ediv 400 * 146097 + ofCycle * 365 + ofCycle / 4 - ofCycle / 100 + dayOfYear - 719468

def dateOfDays (days : Int) : Int × Nat × Nat :=
  let z := days + 719468
  let cycle := z.ediv 146097
  let ofCycle := z.emod 146097
  let yearOfCycle := (ofCycle - ofCycle / 1460 + ofCycle / 36524 - ofCycle / 146096) / 365
  let dayOfYear := ofCycle - (365 * yearOfCycle + yearOfCycle / 4 - yearOfCycle / 100)
  let monthFromMarch := (5 * dayOfYear + 2) / 153
  let day := dayOfYear - (153 * monthFromMarch + 2) / 5 + 1
  let month := if monthFromMarch < 10 then monthFromMarch + 3 else monthFromMarch - 9
  let year := yearOfCycle + cycle * 400 + (if month ≤ 2 then 1 else 0)
  (year, month.toNat, day.toNat)

def isCalendarYear (y : Int) : Bool := -262143 ≤ y ∧ y ≤ 262142

namespace Instant

def year (t : Instant) : Int := (dateOfDays (t.seconds.ediv 86400)).1

/-! ## Reading -/

abbrev Scan (α : Type) := List Char → Except InstantError (α × List Char)

/-- A number of at least `min` and at most `max` digits. -/
def scanNumber (min max : Nat) : Scan Nat := fun s =>
  let digits := (s.take max).takeWhile Char.isDigit
  if min ≤ digits.length then .ok (Nat.ofDigitChars 10 digits 0, s.drop digits.length)
  else if s.length < min then .error .tooShort
  else .error .invalid

def scanChar (c : Char) : Scan Unit
  | [] => .error .tooShort
  | d :: s => if d = c then .ok ((), s) else .error .invalid

def within (low high : Nat) (n : Nat) : Except InstantError Unit :=
  if low ≤ n ∧ n ≤ high then .ok () else .error .outOfRange

/-- Nanoseconds from the digits after a point; digits after the ninth do not count. -/
def scanFraction : Scan Nat
  | '.' :: s => do
    let (n, rest) ← scanNumber 1 9 s
    pure (n * Nat.pow 10 (9 - (s.length - rest.length)), rest.dropWhile Char.isDigit)
  | s => .ok (0, s)

def scanPair : Scan (Nat × Nat)
  | [] => .error .tooShort
  | [c] => .error (if c.utf8Size < 2 then .tooShort else .invalid)
  | a :: b :: s =>
    if a.isDigit ∧ b.isDigit then .ok ((a.toNat - 48, b.toNat - 48), s) else .error .invalid

/-- The offset from UTC in seconds.  `separator` passes over what stands between hours and minutes. -/
def scanOffset (separator : Scan Unit) : Scan Int := fun s =>
  match s with
  | [] => .error .tooShort
  | c :: r =>
    if c = 'Z' ∨ c = 'z' then .ok (0, r)
    else if c = '+' ∨ c = '-' ∨ c = '\u2212' then do
      let ((h₁, h₂), r) ← scanPair r
      let ((), r) ← separator r
      let ((m₁, m₂), r) ← scanPair r
      if 6 ≤ m₁ then .error .outOfRange
      let offset : Int := (h₁ * 10 + h₂) * 3600 + (m₁ * 10 + m₂) * 60
      pure (if c = '+' then offset else -offset, r)
    else .error .invalid

/-- The moment at which clocks at an offset from UTC show a date and a time, whatever its year. -/
def shownAt (year : Int) (month day hour minute second nanos : Nat) (offset : Int) : Instant :=
  let seconds := daysOfDate year month day * 86400 + hour * 3600 + minute * 60 - offset
  if second = 60 then ⟨seconds + 59, nanos + Duration.nanosPerSecond⟩
  else ⟨seconds + second, nanos⟩

/-- The moment at which clocks at an offset from UTC show a date and a time.  Its year is one of the
calendar there and in UTC. -/
def ofClock (year : Int) (month day hour minute second nanos : Nat) (offset : Int) :
    Except InstantError Instant := do
  if day > daysInMonth year month then .error .outOfRange
  if !isCalendarYear year then .error .outOfRange
  if offset ≤ -86400 ∨ 86400 ≤ offset then .error .outOfRange
  let t := shownAt year month day hour minute second nanos offset
  if isCalendarYear t.year then pure t else .error .impossible

def scanSeparator : Scan Unit
  | [] => .error .tooShort
  | c :: s => if c = 'T' ∨ c = 't' ∨ c = ' ' then .ok ((), s) else .error .invalid

def finish (rest : List Char) : Except InstantError Unit :=
  if rest.isEmpty then .ok () else .error .trailing

def scanWithin (min max low high : Nat) : Scan Nat := fun s => do
  let (n, s) ← scanNumber min max s
  within low high n
  pure (n, s)

/-- Reads the strict form: every part with its full number of digits and nothing between the parts. -/
def ofText? (s : List Char) : Except InstantError Instant := do
  let (year, s) ← scanNumber 4 4 s
  let ((), s) ← scanChar '-' s
  let (month, s) ← scanWithin 2 2 1 12 s
  let ((), s) ← scanChar '-' s
  let (day, s) ← scanWithin 2 2 1 31 s
  let ((), s) ← scanSeparator s
  let (hour, s) ← scanWithin 2 2 0 23 s
  let ((), s) ← scanChar ':' s
  let (minute, s) ← scanWithin 2 2 0 59 s
  let ((), s) ← scanChar ':' s
  let (second, s) ← scanWithin 2 2 0 60 s
  let (nanos, s) ← scanFraction s
  let (offset, s) ← scanOffset (scanChar ':') s
  finish s
  ofClock year month day hour minute second nanos offset

/-- A year of up to four digits, or a signed one of any number. -/
def scanYear : Scan Int := fun s =>
  match Text.trimStart s with
  | '-' :: r => do
    let (n, r) ← scanWithin 1 r.length 0 2147483648 r
    pure (-(n : Int), r)
  | '+' :: r => do
    let (n, r) ← scanWithin 1 r.length 0 2147483647 r
    pure ((n : Int), r)
  | s => do
    let (n, r) ← scanNumber 1 4 s
    pure ((n : Int), r)

/-- A number of one or two digits after any blanks. -/
def scanLoose (low high : Nat) : Scan Nat := fun s => scanWithin 1 2 low high (Text.trimStart s)

def scanLooseChar (c : Char) : Scan Unit := fun s => scanChar c (Text.trimStart s)

/-- Reads a form that is looser with blanks and digits, and also takes `UTC` for an offset. -/
def ofLooseText? (s : List Char) : Except InstantError Instant := do
  let (year, s) ← scanYear s
  let ((), s) ← scanLooseChar '-' s
  let (month, s) ← scanLoose 1 12 s
  let ((), s) ← scanLooseChar '-' s
  let (day, s) ← scanLoose 1 31 s
  let ((), s) ← scanSeparator s
  let (hour, s) ← scanLoose 0 23 s
  let ((), s) ← scanLooseChar ':' s
  let (minute, s) ← scanLoose 0 59 s
  let ((), s) ← scanLooseChar ':' s
  let (second, s) ← scanLoose 0 60 s
  let (nanos, s) ← scanFraction s
  let s := Text.trimStart s
  let (offset, s) ←
    if (s.take 3).map Char.toUpper = ['U', 'T', 'C'] then .ok (0, s.drop 3)
    else scanOffset (fun s => .ok ((), s.dropWhile fun c => c = ':' ∨ Text.isBlank c)) s
  finish (Text.trimStart s)
  ofClock year month day hour minute second nanos offset

/-! ## Writing -/

def padded (width n : Nat) : List Char :=
  let ds := Nat.toDigits 10 n
  List.replicate (width - ds.length) '0' ++ ds

/-- A year: four digits, and a sign where it lies outside the four-digit years. -/
def yearText (y : Int) : List Char :=
  if 0 ≤ y ∧ y ≤ 9999 then padded 4 y.toNat
  else (if y < 0 then '-' else '+') :: padded 4 y.natAbs

/-- A fraction of a second in no, three, six or nine digits, as few as it needs. -/
def fractionText (nanos : Nat) : List Char :=
  if nanos = 0 then []
  else if nanos % 1000000 = 0 then '.' :: padded 3 (nanos / 1000000)
  else if nanos % 1000 = 0 then '.' :: padded 6 (nanos / 1000)
  else '.' :: padded 9 nanos

def textWith (offset : List Char) (t : Instant) : List Char :=
  let (year, month, day) := dateOfDays (t.seconds.ediv 86400)
  let ofDay := (t.seconds.emod 86400).toNat
  let second := ofDay % 60 + t.nanos / Duration.nanosPerSecond
  yearText year ++ '-' :: (padded 2 month ++ '-' :: (padded 2 day ++ 'T' ::
    (padded 2 (ofDay / 3600) ++ ':' :: (padded 2 (ofDay / 60 % 60) ++ ':' :: (padded 2 second ++
      (fractionText (t.nanos % Duration.nanosPerSecond) ++ offset))))))

def text (t : Instant) : List Char := t.textWith ['Z']

/-- The text of a moment, ending in the offset of UTC in digits. -/
def offsetText (t : Instant) : List Char := t.textWith ['+', '0', '0', ':', '0', '0']

end Instant

end Automation
