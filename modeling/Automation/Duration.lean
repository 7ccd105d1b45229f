import Automation.Number.Binary

/-!
Spans of time in whole nanoseconds.
-/

namespace Automation

structure Duration where
  nanos : Nat
deriving DecidableEq, Inhabited

namespace Duration

def zero : Duration := ⟨0⟩

def nanosPerSecond : Nat := 1000000000

def ofSeconds (n : Nat) : Duration := ⟨n * nanosPerSecond⟩

def ofMillis (n : Nat) : Duration := ⟨n * 1000000⟩

/-- The span of so many seconds, to the nearest nanosecond.  There is none of negative or too many
seconds, or of what is not a number. -/
def ofFloat? : Double → Option Duration
  | .finite negative size =>
    if negative ∧ size.units ≠ 0 then none
    else
      let nanos := FloatFormat.nearest (size.units * nanosPerSecond) FloatFormat.double.one
      if nanos < UInt64.size * nanosPerSecond then some ⟨nanos⟩ else none
  | _ => none

end Duration

end Automation
