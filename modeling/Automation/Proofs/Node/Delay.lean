import Automation.Config
import Automation.Node.Delay
import Automation.Proofs.Number.Order

/-!
# How long a node waits

The time to wait has one closed form (`DelayConfig.wait?_eq`): the place of the configured seconds on
the line of doubles, cut off at zero and at the cap, as a span of whole nanoseconds.  The comparisons
that come before the conversion are what keeps it away from all that is no span of time.

A cap of whole seconds is a double and also a whole number of nanoseconds, so rounding does not lead
beyond it, and rounding keeps order.  All that is to be said about a wait follows
(`DelayConfig.wait?_delayLimit`).
-/

namespace Automation

namespace Duration

def ofUnits (units : Nat) : Duration :=
  ⟨FloatFormat.nearest (units * nanosPerSecond) FloatFormat.double.one⟩

theorem ofUnits_mono {m n : Nat} (h : m ≤ n) : (ofUnits m).nanos ≤ (ofUnits n).nanos := by
  dsimp only [ofUnits]
  exact FloatFormat.nearest_mono (Nat.mul_le_mul_right _ h) _

theorem ofUnits_whole (n : Nat) : ofUnits (n * FloatFormat.double.one) = ofSeconds n := by
  rw [ofUnits, Nat.mul_right_comm, FloatFormat.nearest_mul _ FloatFormat.double.one_pos, ofSeconds]

theorem ofUnits_zero : ofUnits 0 = zero := by
  have hwhole := ofUnits_whole 0
  rwa [Nat.zero_mul] at hwhole

theorem ofFloat?_of_position {x : Double} {p n : Nat} (hx : x.position = some (p : Int))
    (hpos : 0 < p) (hlt : p < n * FloatFormat.double.one) (hn : n < Nat.pow 2 53) :
    ofFloat? x = some (ofUnits p) := by
  have hlimit := FloatFormat.double.mul_one_le_limit hn (by decide)
  have hnanos : (ofUnits p).nanos < UInt64.size * nanosPerSecond := by
    have hle : (ofUnits p).nanos ≤ (ofSeconds n).nanos :=
      ofUnits_whole n ▸ ofUnits_mono (Nat.le_of_lt hlt)
    have hsize : n < UInt64.size := Nat.lt_trans hn (by decide)
    exact Nat.lt_of_le_of_lt hle (Nat.mul_lt_mul_of_pos_right hsize (by decide))
  generalize n * FloatFormat.double.one = cap at hlt hlimit
  cases x with
  | nan => cases hx
  | infinite negative =>
    have hplace := Option.some.inj hx
    generalize FloatFormat.double.limit = limit at hplace hlimit
    cases negative <;> simp only [Bool.false_eq_true, if_true, if_false] at hplace <;> omega
  | finite negative size =>
    have hplace := Option.some.inj hx
    cases negative with
    | true =>
      rw [if_pos rfl] at hplace
      omega
    | false =>
      obtain rfl : size.units = p := by
        rw [if_neg Bool.false_ne_true] at hplace
        omega
      dsimp only [ofUnits] at hnanos ⊢
      rw [ofFloat?, if_neg (by simp)]
      dsimp only
      rw [if_pos hnanos]

end Duration

namespace DelayConfig

open Duration (ofUnits ofUnits_mono ofUnits_zero ofUnits_whole)

/-- The place of the configured seconds, and zero for what is not a number. -/
def place (c : DelayConfig) : Int := c.seconds.position.getD 0

theorem zero_lt_iff {x : Double} : Binary.zero.lt x = true ↔ 0 < x.position.getD 0 := by
  have hzero : (Binary.zero : Double).position = some 0 := rfl
  rw [Binary.lt, hzero]
  cases x.position <;> simp

theorem position_of_zero_lt {x : Double} (h : Binary.zero.lt x = true) :
    ∃ p : Nat, x.position = some (p : Int) ∧ 0 < p := by
  have hplace := zero_lt_iff.1 h
  cases hx : x.position with
  | none => simp [hx] at hplace
  | some p =>
    rw [hx, Option.getD_some] at hplace
    obtain ⟨m, rfl⟩ := Int.eq_ofNat_of_zero_le (Int.le_of_lt hplace)
    exact ⟨m, rfl, Int.natCast_pos.1 hplace⟩

/-- To compare a cap with a time as doubles is to compare them exactly. -/
theorem cap_le_iff {x : Double} {p n : Nat} (hx : x.position = some (p : Int))
    (hn : n < Nat.pow 2 53) :
    (Binary.ofInt .double n).le x = true ↔ n * FloatFormat.double.one ≤ p := by
  rw [Binary.le, Binary.position_ofInt hn (by decide), hx]
  exact decide_eq_true_iff.trans Int.ofNat_le

/-- With a cap of fewer than `2 ^ 53` seconds there is always a time to wait. -/
theorem wait?_eq (c : DelayConfig) {n : Nat} (hn : n < Nat.pow 2 53) :
    c.wait? n = some (ofUnits (min c.place.toNat (n * FloatFormat.double.one))) := by
  rw [wait?, place]
  generalize c.seconds = x
  by_cases hpos : Binary.zero.lt x = true
  · obtain ⟨p, hp, hplace⟩ := position_of_zero_lt hpos
    have hiff := cap_le_iff hp hn
    rw [hpos, if_neg (by decide), hp, Option.getD_some, Int.toNat_natCast]
    by_cases hle : (Binary.ofInt .double n).le x = true
    · rw [if_pos hle, Nat.min_eq_right (hiff.1 hle), ofUnits_whole]
    · have hlt : p < n * FloatFormat.double.one := Nat.lt_of_not_le fun h => hle (hiff.2 h)
      rw [if_neg hle, Nat.min_eq_left (Nat.le_of_lt hlt)]
      exact Duration.ofFloat?_of_position hp hplace hlt hn
  · have hplace : x.position.getD 0 ≤ 0 := Int.not_lt.1 fun h => hpos (zero_lt_iff.2 h)
    rw [if_pos (by simp [hpos]), Int.toNat_of_nonpos hplace, Nat.zero_min, ofUnits_zero]

/-- Of two durations in the same unit the greater lies no nearer. -/
theorem place_mono {c : DelayConfig} {duration : Double} (h : c.duration.le duration = true) :
    c.place ≤ place { c with duration } := by
  obtain ⟨x, y, hx, hy, hxy⟩ := Binary.le_iff.1 (Binary.scale_le_scale c.unit.inSeconds h)
  have hx' : c.place = x := by rw [place, seconds, hx, Option.getD_some]
  have hy' : place { c with duration } = y := by rw [place, seconds, hy, Option.getD_some]
  omega

theorem place_of_nonpos {c : DelayConfig}
    (h : c.duration.isNaN = true ∨ c.duration.le .zero = true) : c.place ≤ 0 := by
  rcases h with hnan | hle
  · have hduration : c.duration = .nan := by
      cases hd : c.duration with
      | nan => rfl
      | finite negative size => simp [hd, Binary.isNaN] at hnan
      | infinite negative => simp [hd, Binary.isNaN] at hnan
    rw [place, seconds, hduration]
    exact Int.le_refl 0
  · have hzero : place { c with duration := .zero } = 0 := by
      rw [place, seconds, Binary.position_scale c.unit.inSeconds (x := 0) rfl, Binary.scaled_zero,
        Option.getD_some]
    exact hzero ▸ place_mono hle

/-- Whatever the duration, the unit and the settings, there is a time to wait.  It is no longer than the
settings and the fixed cap allow, nothing for a duration that is not positive or not a number, and
no shorter for a longer duration in the same unit. -/
theorem wait?_delayLimit (e : EngineConfig) (c : DelayConfig) :
    ∃ time, c.wait? e.delayLimit = some time ∧
      time.nanos ≤ (Duration.ofSeconds (min e.maxDelaySecs 300)).nanos ∧
      (c.duration.isNaN = true ∨ c.duration.le .zero = true → time = .zero) ∧
      ∀ duration, c.duration.le duration = true →
        ∃ time', wait? { c with duration } e.delayLimit = some time' ∧ time.nanos ≤ time'.nanos := by
  have hlimit : e.delayLimit < Nat.pow 2 53 :=
    Nat.lt_of_le_of_lt (Nat.min_le_right _ _) (by decide)
  refine ⟨_, c.wait?_eq hlimit, ?_, fun h => ?_, fun duration h => ⟨_, wait?_eq _ hlimit, ?_⟩⟩
  · exact ofUnits_whole e.delayLimit ▸ ofUnits_mono (Nat.min_le_right _ _)
  · rw [Int.toNat_of_nonpos (place_of_nonpos h), Nat.zero_min, ofUnits_zero]
  · have hplace := Int.toNat_le_toNat (place_mono h)
    generalize e.delayLimit * FloatFormat.double.one = cap
    exact ofUnits_mono (by omega)

/-- Three minutes less a tenth of a nanosecond. -/
def nearCap : DelayConfig := ⟨Decimal.toBinary .double false ⟨1799999999999, -10⟩, .seconds⟩

-- It is below a cap of three minutes, and rounding leads up to the cap but not beyond.
example : nearCap.seconds.lt (.ofInt .double 180) = true ∧
    nearCap.wait? 180 = some (.ofSeconds 180) := by decide +kernel

end DelayConfig

end Automation
