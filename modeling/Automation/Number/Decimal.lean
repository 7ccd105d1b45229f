import Automation.Number.Binary

/-!
Decimal text of numbers.

A `Decimal` is a whole number of digits times a power of ten.  `Magnitude.shortest` chooses, for a
value of a binary format, the fewest digits that read back as that value and of those the nearest.
How digits are laid out as text is a `DecimalStyle`: from which exponents on a power of ten is
written out, and whether a whole number keeps a point.
-/

namespace Automation

/-- The number `digits * 10 ^ exponent`. -/
structure Decimal where
  digits : Nat
  exponent : Int
deriving DecidableEq, Inhabited

namespace Decimal

def width (n : Nat) : Nat := (Nat.toDigits 10 n).length

/-- The power of ten of the first digit, which is the first digit's place: `0` for units. -/
def place (d : Decimal) : Int := (width d.digits : Int) + d.exponent - 1

/-- The value of a binary format nearest to a decimal.  Places that lie outside the format's range
whatever the digits are answered without raising ten to such a power. -/
def toBinary (f : FloatFormat) (negative : Bool) (d : Decimal) : Binary f :=
  if d.digits = 0 ∨ d.place < -(f.scale : Int) - 1 then .finite negative .zero
  else if (f.overflow : Int) - f.scale < d.place then .infinite negative
  else if 0 ≤ d.exponent then
    .ofQuotient f negative (d.digits * Nat.pow 10 d.exponent.toNat) 1
  else
    .ofQuotient f negative d.digits (Nat.pow 10 (-d.exponent).toNat)

def strip (digits : Nat) (exponent : Int) : Decimal :=
  if h : digits ≠ 0 ∧ digits % 10 = 0 then strip (digits / 10) (exponent + 1)
  else ⟨digits, exponent⟩
termination_by digits
decreasing_by exact Nat.div_lt_self (by omega) (by decide)

/-- The decimal that number text spells: digits before the point, digits after it, exponent. -/
def ofParts (whole fraction : List Char) (exponent : Int) : Decimal :=
  ⟨Nat.ofDigitChars 10 (whole ++ fraction) 0, exponent - fraction.length⟩

end Decimal

def decimalPlace (num den : Nat) : Int :=
  if den ≤ num then (Decimal.width (num / den) : Int) - 1
  else
    let count := Decimal.width (den / num)
    if den = num * Nat.pow 10 (count - 1) then -((count : Int) - 1) else -(count : Int)

namespace Magnitude

variable {f : FloatFormat}

/-- Whether a decimal reads back as the value. -/
def ReadsFrom (m : Magnitude f) (d : Decimal) : Prop := d.toBinary f false = .finite false m

instance (m : Magnitude f) (d : Decimal) : Decidable (m.ReadsFrom d) :=
  inferInstanceAs (Decidable (_ = _))

/-- The value written out in full: a multiple of `2 ^ -s` is a multiple of `10 ^ -s`. -/
def exact (m : Magnitude f) : Decimal := ⟨m.units * Nat.pow 5 f.scale, -(f.scale : Int)⟩

/-- The decimal with `count` digits nearest to the value among the two that enclose it and read
back; of two equally near the even one. -/
def withDigits? (m : Magnitude f) (count : Nat) : Option Decimal :=
  let drop := decimalPlace m.units f.one + 1 - count
  let num := m.units * Nat.pow 10 (-drop).toNat
  let den := f.one * Nat.pow 10 drop.toNat
  let low : Decimal := ⟨num / den, drop⟩
  let high : Decimal := ⟨num / den + 1, drop⟩
  let twice := 2 * (num % den)
  let lowFirst := twice < den ∨ (twice = den ∧ low.digits % 2 = 0)
  let first := if lowFirst then low else high
  let second := if lowFirst then high else low
  if m.ReadsFrom first then some first
  else if m.ReadsFrom second then some second
  else none

/-- An upper bound on how many digits it takes to tell the values of the format apart. -/
def maxDigits (f : FloatFormat) : Nat := f.precision * 31 / 100 + 2

/-- The fewest digits that read back as the value, and of those the nearest to it. -/
def shortest (m : Magnitude f) : Decimal :=
  if m.units = 0 then ⟨0, 0⟩
  else
    let d := ((List.range (maxDigits f)).findSome? fun n => m.withDigits? (n + 1)).getD m.exact
    Decimal.strip d.digits d.exponent

end Magnitude

structure DecimalStyle where
  /-- The places of the first digit at which the number is written without an exponent. -/
  positional : Int → Bool
  /-- Whether a whole number is written with a point and a zero after it. -/
  pointed : Bool

namespace Decimal

def layoutPositional (pointed : Bool) (d : Decimal) : List Char :=
  let ds := Nat.toDigits 10 d.digits
  let point := d.place + 1
  if point ≤ 0 then '0' :: '.' :: (List.replicate (-point).toNat '0' ++ ds)
  else if (ds.length : Int) ≤ point then
    ds ++ List.replicate d.exponent.toNat '0' ++ (if pointed then ['.', '0'] else [])
  else ds.take point.toNat ++ '.' :: ds.drop point.toNat

def layoutScientific (d : Decimal) : List Char :=
  let ds := Nat.toDigits 10 d.digits
  let mantissa := match ds with
    | c :: e :: r => c :: '.' :: e :: r
    | _ => ds
  mantissa ++ 'e' :: (if d.place < 0 then '-' else '+') :: Nat.toDigits 10 d.place.natAbs

def layout (style : DecimalStyle) (d : Decimal) : List Char :=
  if style.positional d.place then d.layoutPositional style.pointed else d.layoutScientific

end Decimal

def Magnitude.text {f : FloatFormat} (style : DecimalStyle) (negative : Bool) (m : Magnitude f) :
    List Char :=
  (if negative then ['-'] else []) ++ m.shortest.layout style

def DecimalStyle.plain : DecimalStyle := ⟨fun _ => true, false⟩

end Automation
