import Automation.Duration
import Automation.Node.Basic

/-!
Configuration of a node that waits.
-/

namespace Automation

inductive DelayUnit where
  | minutes
  | hours
  | seconds
deriving DecidableEq

structure DelayConfig where
  duration : Double
  unit : DelayUnit

open Json (Decoder Layout)

namespace DelayUnit

/-- Any other name stands for seconds. -/
def names : List (String × DelayUnit) :=
  [("minutes", .minutes), ("hours", .hours), ("seconds", .seconds)]

def name : DelayUnit → String
  | .minutes => "minutes"
  | .hours => "hours"
  | .seconds => "seconds"

def inSeconds : DelayUnit → Nat
  | .minutes => 60
  | .hours => 3600
  | .seconds => 1

end DelayUnit

namespace DelayConfig

def layout :=
  Layout.optional "duration" Decoder.double .zero <|
  .optional "unit" (.variant DelayUnit.names (some .seconds)) .seconds .nil

def decoder : Decoder DelayConfig :=
  layout.decoder "DelayConfig" fun (duration, unit, ()) => ⟨duration, unit⟩

def encode (c : DelayConfig) : Value :=
  .object [("duration", .ofDouble c.duration), ("unit", .string c.unit.name)]

def seconds (c : DelayConfig) : Double := c.duration.scale c.unit.inSeconds

/-- How long to wait, but no longer than so many seconds.  There is nothing to wait for unless the
time is positive. -/
def wait? (c : DelayConfig) (maxSeconds : Nat) : Option Duration :=
  if !Binary.zero.lt c.seconds then some .zero
  else if (Binary.ofInt .double maxSeconds).le c.seconds then some (.ofSeconds maxSeconds)
  else Duration.ofFloat? c.seconds

def check (c : DelayConfig) : Except Complaint Unit :=
  if c.duration.isNaN then .error "duration must be a number" else .ok ()

end DelayConfig

end Automation
