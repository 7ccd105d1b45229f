/-!
Binary floating point by meaning.

A format fixes how many significant bits a value may have and the weight of its least positive
value, the *unit*.  A finite value is a sign and a whole number of units, so order is order of
integers and rounding is division.  `FloatFormat.round` takes an exact quotient of units to the
nearest value of the format, a tie going to the even neighbour, and `fits_round` says that what it
gives is a value of the format; `round_of_fits` says that a value of the format is left alone.
-/

namespace Automation

/-- A binary format.  Its finite values are the multiples of `2 ^ -scale` below
`2 ^ (overflow - scale)` that have at most `precision` significant bits. -/
structure FloatFormat where
  precision : Nat
  scale : Nat
  overflow : Nat
  precision_pos : 0 < precision := by decide

namespace FloatFormat

def double : FloatFormat := { precision := 53, scale := 1074, overflow := 2098 }

def single : FloatFormat := { precision := 24, scale := 149, overflow := 277 }

def one (f : FloatFormat) : Nat := Nat.pow 2 f.scale

/-- The least number of units that is too great for the format. -/
def limit (f : FloatFormat) : Nat := Nat.pow 2 f.overflow

/-- How many low bits of `units` lie beyond the significant ones. -/
def excess (f : FloatFormat) (units : Nat) : Nat := units.log2 + 1 - f.precision

/-- What the last significant bit of a number of units stands for, which is how far its neighbours
are from it. -/
def step (f : FloatFormat) (units : Nat) : Nat := Nat.pow 2 (f.excess units)

/-- Whether a number of units has no more significant bits than the format keeps. -/
def Fits (f : FloatFormat) (units : Nat) : Prop := units % f.step units = 0

instance (f : FloatFormat) (units : Nat) : Decidable (f.Fits units) :=
  inferInstanceAs (Decidable (units % f.step units = 0))

/-- The whole number nearest to `num / den`, the even one of two equally near. -/
def nearest (num den : Nat) : Nat :=
  let low := num / den
  let twice := 2 * (num % den)
  if twice < den then low else if den < twice then low + 1 else low + low % 2

/-- The number of units in the value of the format nearest to `num / den` units, as if the format
had no greatest value. -/
def round (f : FloatFormat) (num den : Nat) : Nat :=
  let step := f.step (num / den)
  nearest num (den * step) * step

theorem one_pos (f : FloatFormat) : 0 < f.one := Nat.two_pow_pos _

theorem limit_pos (f : FloatFormat) : 0 < f.limit := Nat.two_pow_pos _

theorem step_pos (f : FloatFormat) (units : Nat) : 0 < f.step units := Nat.two_pow_pos _

theorem nearest_le (num den : Nat) : nearest num den ≤ num / den + 1 := by
  unfold nearest
  dsimp only
  have := Nat.mod_lt (num / den) (show 0 < 2 by decide)
  split
  · omega
  · split <;> omega

theorem nearest_mul (k : Nat) {den : Nat} (h : 0 < den) : nearest (k * den) den = k := by
  simp [nearest, Nat.mul_div_cancel _ h, h]

theorem fits_mul_pow (f : FloatFormat) {k s : Nat} (h : k < Nat.pow 2 f.precision) :
    f.Fits (k * Nat.pow 2 s) := by
  unfold Fits step excess
  simp only [Nat.pow_eq] at h ⊢
  rcases Nat.eq_zero_or_pos k with rfl | hk
  · simp
  have hlog : (k * 2 ^ s).log2 < f.precision + s := by
    refine (Nat.log2_lt (Nat.mul_ne_zero (by omega) (by simp))).2 ?_
    rw [Nat.pow_add]
    exact Nat.mul_lt_mul_of_pos_right h (Nat.two_pow_pos s)
  have hle : (k * 2 ^ s).log2 + 1 - f.precision ≤ s := by omega
  obtain ⟨d, hd⟩ := Nat.exists_eq_add_of_le hle
  generalize (k * 2 ^ s).log2 + 1 - f.precision = e at hd hle
  subst hd
  rw [show k * 2 ^ (e + d) = k * 2 ^ d * 2 ^ e by rw [Nat.pow_add]; ac_rfl]
  exact Nat.mul_mod_left _ _

theorem quotient_lt (f : FloatFormat) (num den : Nat) :
    num / (den * f.step (num / den)) < Nat.pow 2 f.precision := by
  rw [← Nat.div_div_eq_div_mul]
  generalize num / den = q
  refine Nat.div_lt_of_lt_mul ?_
  simp only [step, Nat.pow_eq]
  rw [← Nat.pow_add]
  refine Nat.lt_of_lt_of_le Nat.lt_log2_self (Nat.pow_le_pow_right (by decide) ?_)
  unfold excess
  omega

theorem fits_round (f : FloatFormat) (num den : Nat) : f.Fits (f.round num den) := by
  have hlow := f.quotient_lt num den
  have hup := nearest_le num (den * f.step (num / den))
  unfold round
  dsimp only
  unfold step at *
  generalize f.excess (num / den) = s at *
  generalize nearest num (den * Nat.pow 2 s) = k at *
  rcases Nat.lt_or_ge k (Nat.pow 2 f.precision) with h | h
  · exact f.fits_mul_pow h
  · have hk : k = Nat.pow 2 (f.precision - 1) * Nat.pow 2 1 := by
      simp only [Nat.pow_eq] at *
      rw [← Nat.pow_add, Nat.sub_add_cancel f.precision_pos]
      omega
    have hs : Nat.pow 2 1 * Nat.pow 2 s = Nat.pow 2 (1 + s) := (Nat.pow_add 2 1 s).symm
    rw [hk, Nat.mul_assoc, hs]
    exact f.fits_mul_pow
      (Nat.pow_lt_pow_right (by decide) (Nat.sub_lt f.precision_pos (by decide)))

/-- A value of the format is its own rounding, however the quotient is written. -/
theorem round_of_fits (f : FloatFormat) {units den : Nat} (h : f.Fits units) (hd : 0 < den) :
    f.round (units * den) den = units := by
  unfold round
  dsimp only
  rw [Nat.mul_div_cancel _ hd]
  obtain ⟨k, hk⟩ := Nat.dvd_of_mod_eq_zero h
  have hpos : 0 < den * f.step units := Nat.mul_pos hd (f.step_pos units)
  have : units * den = k * (den * f.step units) := by
    generalize f.step units = p at *
    rw [hk]
    ac_rfl
  rw [this, nearest_mul _ hpos]
  rw [Nat.mul_comm]
  exact hk.symm

theorem round_zero (f : FloatFormat) (den : Nat) : f.round 0 den = 0 := by
  simp [round, nearest]

end FloatFormat

/-- The size of a finite value: a number of units that fits the format. -/
structure Magnitude (f : FloatFormat) where
  units : Nat
  fits : f.Fits units
  bounded : units < f.limit
deriving DecidableEq

inductive Binary (f : FloatFormat) where
  | finite (negative : Bool) (size : Magnitude f)
  | infinite (negative : Bool)
  | nan
deriving DecidableEq

abbrev Double := Binary .double

abbrev Single := Binary .single

namespace Magnitude

def zero {f : FloatFormat} : Magnitude f :=
  ⟨0, by simp [FloatFormat.Fits], f.limit_pos⟩

instance {f : FloatFormat} : Inhabited (Magnitude f) := ⟨zero⟩

/-- The nearest finite value to `num / den` units, if rounding stays below the overflow. -/
def ofUnits? (f : FloatFormat) (num den : Nat) : Option (Magnitude f) :=
  if h : f.round num den < f.limit then
    some ⟨f.round num den, f.fits_round num den, h⟩
  else none

theorem ofUnits?_units {f : FloatFormat} (m : Magnitude f) {den : Nat} (h : 0 < den) :
    ofUnits? f (m.units * den) den = some m := by
  have hr := f.round_of_fits m.fits h
  simp [ofUnits?, hr, m.bounded]

def isWhole {f : FloatFormat} (m : Magnitude f) : Bool := m.units % f.one = 0

def whole {f : FloatFormat} (m : Magnitude f) : Nat := m.units / f.one

end Magnitude

namespace Binary

variable {f : FloatFormat}

def zero : Binary f := .finite false .zero

instance : Inhabited (Binary f) := ⟨zero⟩

/-- The value nearest to `num / den`; beyond the greatest finite value it is infinite. -/
def ofQuotient (f : FloatFormat) (negative : Bool) (num den : Nat) : Binary f :=
  match Magnitude.ofUnits? f (num * f.one) den with
  | some size => .finite negative size
  | none => .infinite negative

def ofInt (f : FloatFormat) (n : Int) : Binary f := ofQuotient f (n < 0) n.natAbs 1

def convert (g : FloatFormat) : Binary f → Binary g
  | .finite negative size => ofQuotient g negative size.units f.one
  | .infinite negative => .infinite negative
  | .nan => .nan

def scale (k : Nat) : Binary f → Binary f
  | .finite negative size => ofQuotient f negative (size.units * k) f.one
  | .infinite negative => .infinite negative
  | .nan => .nan

def neg : Binary f → Binary f
  | .finite negative size => .finite (!negative) size
  | .infinite negative => .infinite (!negative)
  | .nan => .nan

def add : Binary f → Binary f → Binary f
  | .finite m a, .finite n b =>
    let x : Int := if m then -(a.units : Int) else a.units
    let y : Int := if n then -(b.units : Int) else b.units
    ofQuotient f (x + y < 0 || (m && n)) (x + y).natAbs f.one
  | .finite _ _, y => y
  | x, .finite _ _ => x
  | .infinite m, .infinite n => if m = n then .infinite m else .nan
  | _, _ => .nan

def mul : Binary f → Binary f → Binary f
  | .finite m a, .finite n b => ofQuotient f (m != n) (a.units * b.units) (f.one * f.one)
  | .finite m a, .infinite n | .infinite n, .finite m a =>
    if a.units = 0 then .nan else .infinite (m != n)
  | .infinite m, .infinite n => .infinite (m != n)
  | _, _ => .nan

def div : Binary f → Binary f → Binary f
  | .finite m a, .finite n b =>
    if b.units ≠ 0 then ofQuotient f (m != n) a.units b.units
    else if a.units ≠ 0 then .infinite (m != n)
    else .nan
  | .finite m _, .infinite n => .finite (m != n) .zero
  | .infinite m, .finite n _ => .infinite (m != n)
  | _, _ => .nan

/-- Where a value lies on the line of units.  An infinity lies beyond every finite value, and
what is not a number lies nowhere. -/
def position : Binary f → Option Int
  | .finite negative size => some (if negative then -(size.units : Int) else size.units)
  | .infinite negative => some (if negative then -(f.limit : Int) else f.limit)
  | .nan => none

/-- Strict order of numbers; what is not a number is in no order with anything. -/
def lt (a b : Binary f) : Bool :=
  match a.position, b.position with
  | some x, some y => x < y
  | _, _ => false

def le (a b : Binary f) : Bool :=
  match a.position, b.position with
  | some x, some y => x ≤ y
  | _, _ => false

def isFinite : Binary f → Bool
  | .finite _ _ => true
  | _ => false

def isNaN : Binary f → Bool
  | .nan => true
  | _ => false

end Binary

end Automation
