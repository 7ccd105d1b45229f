import Automation.Json.Printer
import Automation.Text.Blank

/-!
Comparing values.

Text operators compare how values read as text, ordering operators compare numbers.  A string counts
as the number its longest numeric beginning spells (`numericPrefix`), and as zero without one.
-/

namespace Automation

/-- How many characters the longest numeric beginning takes.  `digit`, `dot` and `exp` say what has
been seen, `taken` counts the characters seen, and `best` those up to the last digit. -/
def numericLength (digit dot exp : Bool) (taken best : Nat) : List Char → Nat
  | [] => best
  | c :: s =>
    if c.isDigit then numericLength true dot exp (taken + 1) (taken + 1) s
    else if c = '.' ∧ !dot ∧ !exp then numericLength digit true exp (taken + 1) best s
    else if (c = 'e' ∨ c = 'E') ∧ digit ∧ !exp then
      match s with
      | [] => best
      | sign :: r =>
        if sign = '+' ∨ sign = '-' then numericLength digit dot true (taken + 2) best r
        else numericLength digit dot true (taken + 1) best (sign :: r)
    else best

/-- The longest beginning of a text that reads as a number: a sign, digits with at most one point
among them, and an exponent, up to its last digit. -/
def numericPrefix (s : List Char) : List Char :=
  match s with
  | sign :: r =>
    if sign = '+' ∨ sign = '-' then s.take (numericLength false false false 1 0 r)
    else s.take (numericLength false false false 0 0 s)
  | [] => []

def splitSign : List Char → Bool × List Char
  | '-' :: s => (true, s)
  | '+' :: s => (false, s)
  | s => (false, s)

/-- The exponent after an `e`: a sign and at least one digit. -/
def exponentOf? (s : List Char) : Option Int :=
  let (negative, digits) := splitSign s
  if digits.isEmpty ∨ !digits.all Char.isDigit then none
  else
    let n : Int := Nat.ofDigitChars 10 digits 0
    some (if negative then -n else n)

def doubleOf? (s : List Char) : Option Double :=
  let (negative, s) := splitSign s
  let whole := s.takeWhile Char.isDigit
  let rest := s.dropWhile Char.isDigit
  let (fraction, rest) := match rest with
    | '.' :: r => (r.takeWhile Char.isDigit, r.dropWhile Char.isDigit)
    | _ => ([], rest)
  if whole.isEmpty && fraction.isEmpty then none
  else
    let value (e : Int) := (Decimal.ofParts whole fraction e).toBinary .double negative
    match rest with
    | [] => some (value 0)
    | c :: r => if c = 'e' ∨ c = 'E' then (exponentOf? r).map value else none

namespace Value

/-- A value as a number: a string by its numeric beginning, anything but numbers and strings as
zero. -/
def toNumber : Value → Double
  | .number n => n.toDouble
  | .string s => (doubleOf? (numericPrefix (Text.trim s.toList))).getD .zero
  | _ => .zero

end Value

inductive Comparison where
  | eq
  | ne
  | contains
  | startsWith
  | endsWith
  | gt
  | lt
  | gte
  | lte
  | empty
  | notEmpty
  /-- An operator of another name; it never holds. -/
  | unsupported
deriving DecidableEq

namespace Comparison

def holds (op : Comparison) (actual expected : Value) : Bool :=
  match op with
  | .eq => actual.text = expected.text
  | .ne => actual.text ≠ expected.text
  | .contains => Text.contains expected.text actual.text
  | .startsWith => expected.text.isPrefixOf actual.text
  | .endsWith => expected.text.isSuffixOf actual.text
  | .gt => expected.toNumber.lt actual.toNumber
  | .lt => actual.toNumber.lt expected.toNumber
  | .gte => expected.toNumber.le actual.toNumber
  | .lte => actual.toNumber.le expected.toNumber
  | .empty => actual.text.isEmpty
  | .notEmpty => !actual.text.isEmpty
  | .unsupported => false

def name : Comparison → String
  | .eq => "eq"
  | .ne => "ne"
  | .contains => "contains"
  | .startsWith => "starts_with"
  | .endsWith => "ends_with"
  | .gt => "gt"
  | .lt => "lt"
  | .gte => "gte"
  | .lte => "lte"
  | .empty => "empty"
  | .notEmpty => "not_empty"
  | .unsupported => "unsupported"

/-- The names under which an operator is read. -/
def names : List (String × Comparison) :=
  [("==", .eq), ("eq", .eq), ("equals", .eq), ("!=", .ne), ("ne", .ne), ("not_equals", .ne),
    ("contains", .contains), ("starts_with", .startsWith), ("ends_with", .endsWith),
    (">", .gt), ("gt", .gt), ("<", .lt), ("lt", .lt), (">=", .gte), ("gte", .gte),
    ("<=", .lte), ("lte", .lte), ("empty", .empty), ("not_empty", .notEmpty),
    ("unsupported", .unsupported)]

theorem lookup_name (op : Comparison) : names.lookup op.name = some op := by
  cases op <;> rfl

end Comparison

end Automation
