import Automation.Keyed
import Automation.Number.Decimal

/-!
Dynamically typed values: what variables hold, what nodes are configured with and what they give.

A number is either an integer of 64 bits, signed or unsigned, or a finite double; the two never
compare equal.
-/

namespace Automation

inductive Number where
  | integer (value : Int) (inRange : -9223372036854775808 ≤ value ∧ value < 18446744073709551616)
  | double (negative : Bool) (size : Magnitude .double)
deriving DecidableEq

inductive Value where
  | null
  | bool (b : Bool)
  | number (n : Number)
  | string (s : String)
  | array (items : List Value)
  | object (members : List (String × Value))
deriving Inhabited

/-- The members of an object, a variable scope or a node's output, by key. -/
abbrev Record := Keyed Value

namespace Number

/-- A whole number as an integer where 64 bits hold it, and else as the nearest double. -/
def ofInt? (n : Int) : Option Number :=
  if h : -9223372036854775808 ≤ n ∧ n < 18446744073709551616 then some (.integer n h)
  else match Binary.ofInt .double n with
    | .finite negative size => some (.double negative size)
    | _ => none

def ofDouble? : Double → Option Number
  | .finite negative size => some (.double negative size)
  | _ => none

def toDouble : Number → Double
  | .integer n _ => .ofInt .double n
  | .double negative size => .finite negative size

def toBinary (f : FloatFormat) : Number → Binary f
  | .integer n _ => .ofInt f n
  | .double negative size => Binary.convert f (.finite negative size)

def toInt64? : Number → Option Int
  | .integer n _ => if n < 9223372036854775808 then some n else none
  | .double _ _ => none

/-- The number that number text spells, unless it lies beyond the greatest double.  Without a
point and an exponent it is an integer where 64 bits hold it; zero with a minus sign is a
double. -/
def ofParts? (negative : Bool) (whole : List Char) (fraction : Option (List Char))
    (exponent : Option Int) : Option Number :=
  let double :=
    ofDouble? ((Decimal.ofParts whole (fraction.getD []) (exponent.getD 0)).toBinary .double
      negative)
  match fraction, exponent with
  | none, none =>
    let n : Int := Nat.ofDigitChars 10 whole 0
    let n := if negative then -n else n
    if h : (-9223372036854775808 ≤ n ∧ n < 18446744073709551616) ∧ ¬(n = 0 ∧ negative) then
      some (.integer n h.1)
    else double
  | _, _ => double

/-- How the doubles of a value are written: without an exponent from the fifth place after the
point to the sixteenth before it, and always so that they differ from an integer. -/
def jsonStyle : DecimalStyle := ⟨fun place => -5 ≤ place ∧ place ≤ 15, true⟩

def intText (n : Int) : List Char :=
  (if n < 0 then ['-'] else []) ++ Nat.toDigits 10 n.natAbs

def json : Number → List Char
  | .integer n _ => intText n
  | .double negative size => size.text jsonStyle negative

/-- The text of a number by itself.  A whole double below `10 ^ 15` reads like an integer, and no
double is written with an exponent. -/
def text : Number → List Char
  | .integer n _ => intText n
  | .double negative size =>
    if size.isWhole ∧ size.whole < 1000000000000000 then
      intText (if negative then -(size.whole : Int) else size.whole)
    else size.text .plain negative

end Number

namespace Value

def ofNat (n : Nat) : Value := ((Number.ofInt? n).map .number).getD .null

def ofText (s : List Char) : Value := .string (.ofList s)

/-- A double as a value; one that is not finite is null. -/
def ofDouble (x : Double) : Value := ((Number.ofDouble? x).map .number).getD .null

def isNull : Value → Bool
  | .null => true
  | _ => false

def asString? : Value → Option String
  | .string s => some s
  | _ => none

def asRecord? : Value → Option Record
  | .object r => some r
  | _ => none

end Value

end Automation
