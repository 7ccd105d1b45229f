import Automation.Instant
import Automation.Number.Decimal
import Automation.Text.Hex
import Automation.Toml.Item

/-!
TOML numbers, truth values, dates and times.

All of them are made of the same characters, so a scalar is read off as one word, `isWordChar`; only
between a date and a time may a blank stand.
-/

namespace Automation.Toml

/-- The characters of numbers, truth values, dates and times. -/
def isWordChar (c : Char) : Bool :=
  c.isAlphanum || c = '+' || c = '-' || c = '.' || c = '_' || c = ':'

/-! ## Dates and times -/

open Instant in
def scanDate : Scan Unit := fun s => do
  let (year, s) ← scanNumber 4 4 s
  let ((), s) ← scanChar '-' s
  let (month, s) ← scanWithin 2 2 1 12 s
  let ((), s) ← scanChar '-' s
  let (_, s) ← scanWithin 2 2 1 (daysInMonth year month) s
  pure ((), s)

open Instant in
def scanTime : Scan Unit := fun s => do
  let (_, s) ← scanWithin 2 2 0 23 s
  let ((), s) ← scanChar ':' s
  let (_, s) ← scanWithin 2 2 0 59 s
  let ((), s) ← scanChar ':' s
  let (_, s) ← scanWithin 2 2 0 60 s
  let (_, s) ← scanFraction s
  pure ((), s)

open Instant in
def scanShift : Scan Unit
  | [] => .ok ((), [])
  | c :: s =>
    if c = 'Z' ∨ c = 'z' then .ok ((), s)
    else do
      if c ≠ '+' ∧ c ≠ '-' then .error .invalid
      let (_, s) ← scanWithin 2 2 0 23 s
      let ((), s) ← scanChar ':' s
      let (_, s) ← scanWithin 2 2 0 59 s
      pure ((), s)

def isTime (s : List Char) : Bool :=
  match scanTime s with
  | .ok ((), []) => true
  | _ => false

def isShiftedTime (s : List Char) : Bool :=
  match (do let ((), s) ← scanTime s; scanShift s) with
  | .ok ((), []) => true
  | _ => false

def moment? (s : List Char) : Option (List Char) :=
  let word := s.takeWhile isWordChar
  let rest := s.dropWhile isWordChar
  if isTime word then some rest
  else
    match scanDate word with
    | .ok ((), []) =>
      match rest with
      | ' ' :: later =>
        let time := later.takeWhile isWordChar
        if time.isEmpty then some rest
        else if isShiftedTime time then some (later.dropWhile isWordChar)
        else none
      | _ => some rest
    | .ok ((), c :: time) => if (c = 'T' ∨ c = 't') ∧ isShiftedTime time then some rest else none
    | .error _ => none

/-! ## Numbers -/

/-- Digits, between any two of which an underscore may stand. -/
def digits? (isDigit : Char → Bool) : List Char → Option (List Char)
  | [] => none
  | [c] => if isDigit c then some [c] else none
  | c :: '_' :: s => if isDigit c then (digits? isDigit s).map (c :: ·) else none
  | c :: s => if isDigit c then (digits? isDigit s).map (c :: ·) else none

def integer? (n : Int) : Option Item :=
  if -9223372036854775808 ≤ n ∧ n < 9223372036854775808 then some (.integer n) else none

def based? (base : Nat) (s : List Char) : Option Item := do
  let isDigit (c : Char) : Bool :=
    match Hex.value? c with
    | some d => d < base
    | none => false
  let digits ← digits? isDigit s
  integer? (digits.foldl (fun n c => base * n + (Hex.value? c).getD 0) 0 : Nat)

/-- A number with a fraction or an exponent.  One that rounds to positive infinity is refused. -/
def float? (negative : Bool) (whole fraction : List Char) (exponent : Int) : Option Item :=
  match (Decimal.ofParts whole fraction exponent).toBinary .double negative with
  | .infinite false => none
  | x => some (.float x)

def exponent? (s : List Char) : Option Int := do
  let (negative, s) := match s with
    | '-' :: s => (true, s)
    | '+' :: s => (false, s)
    | _ => (false, s)
  let digits ← digits? Char.isDigit s
  let n : Int := Nat.ofDigitChars 10 digits 0
  some (if negative then -n else n)

def isExponentMark (c : Char) : Bool := c = 'e' || c = 'E'

def decimal? (negative : Bool) (s : List Char) : Option Item := do
  let mantissa := s.takeWhile (!isExponentMark ·)
  let whole ← digits? Char.isDigit (mantissa.takeWhile (· ≠ '.'))
  if whole.head? = some '0' ∧ 1 < whole.length then none
  let fraction ← match mantissa.dropWhile (· ≠ '.') with
    | [] => some none
    | _ :: r => (digits? Char.isDigit r).map some
  match s.dropWhile (!isExponentMark ·), fraction with
  | [], none =>
    let n : Int := Nat.ofDigitChars 10 whole 0
    integer? (if negative then -n else n)
  | [], some fraction => float? negative whole fraction 0
  | _ :: r, fraction => do float? negative whole (fraction.getD []) (← exponent? r)

def unsigned? (negative : Bool) (s : List Char) : Option Item :=
  if s = ['i', 'n', 'f'] then some (.float (.infinite negative))
  else if s = ['n', 'a', 'n'] then some (.float .nan)
  else decimal? negative s

def number? : List Char → Option Item
  | '-' :: s => unsigned? true s
  | '+' :: s => unsigned? false s
  | '0' :: 'x' :: s => based? 16 s
  | '0' :: 'o' :: s => based? 8 s
  | '0' :: 'b' :: s => based? 2 s
  | s => unsigned? false s

def scalar? (s : List Char) : Option (Item × List Char) :=
  match moment? s with
  | some rest => some (.moment, rest)
  | none => do
    let word := s.takeWhile isWordChar
    let item ←
      if word = ['t', 'r', 'u', 'e'] then some (.bool true)
      else if word = ['f', 'a', 'l', 's', 'e'] then some (.bool false)
      else number? word
    some (item, s.dropWhile isWordChar)

end Automation.Toml
