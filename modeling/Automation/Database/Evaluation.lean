import Automation.Database.Table
import Automation.Sql.Syntax

/-!
The value of an SQL expression in a row.

Truth has three values: a comparison with null is null, and `and` and `or` decide only where one side
is enough.
-/

namespace Automation.Database

open Sql (Arithmetic Expr Operator)

def Cell.ofBool (b : Bool) : Cell := .integer (if b then 1 else 0)

def accepts (op : Operator) (o : Ordering) : Bool :=
  match op with
  | .eq => o = .eq
  | .ne => o ≠ .eq
  | .lt => o = .lt
  | .le => o ≠ .gt
  | .gt => o = .gt
  | .ge => o ≠ .lt
  | .and | .or => false

def compareCells (op : Operator) (a b : Cell) : Cell :=
  if a = .null ∨ b = .null then .null else .ofBool (accepts op (a.order b))

def both (a b : Cell) : Cell :=
  if (a ≠ .null ∧ !a.isTrue) ∨ (b ≠ .null ∧ !b.isTrue) then .ofBool false
  else if a = .null ∨ b = .null then .null
  else .ofBool true

def either (a b : Cell) : Cell :=
  if (a ≠ .null ∧ a.isTrue) ∨ (b ≠ .null ∧ b.isTrue) then .ofBool true
  else if a = .null ∨ b = .null then .null
  else .ofBool false

def Cell.negated : Cell → Cell
  | integer n => if isInt64 (-n) then integer (-n) else real (.ofInt .double (-n))
  | real x => real x.neg
  | text s => ofNumberText ('-' :: numericPrefix (Text.trim s))
  | null => null
  | _ => integer 0

/-- A cell as a number, or null: a text counts as the number it begins with, bytes as the text they
spell. -/
def Cell.asNumber (c : Cell) : Cell :=
  match c with
  | .integer _ | .real _ | .null => c
  | _ => .ofNumberText (numericPrefix (Text.trim ((c.asText?).getD [])))

def Cell.asReal : Cell → Double
  | .integer n => .ofInt .double n
  | .real x => x
  | _ => .zero

/-- A number cut to a whole one that 63 bits and a sign hold. -/
def Cell.asWhole : Cell → Int
  | .integer n => n
  | .real (.finite negative size) =>
    if negative then max leastInt64 (-(size.whole : Int)) else min greatestInt64 size.whole
  | .real (.infinite true) => leastInt64
  | .real (.infinite false) => greatestInt64
  | _ => 0

def Cell.ofReal (x : Double) : Cell := if x.isNaN then .null else .real x

/-- A whole number, or the real nearest to it where 63 bits and a sign do not hold it. -/
def Cell.ofWhole (n : Int) : Cell := if isInt64 n then .integer n else .real (.ofInt .double n)

/-- Calculates with two numbers.  Whole numbers stay whole, also in a division; to divide by zero gives
null. -/
def calculate (op : Arithmetic) (a b : Cell) : Cell :=
  match op, a, b with
  | .add, .integer m, .integer n => .ofWhole (m + n)
  | .subtract, .integer m, .integer n => .ofWhole (m - n)
  | .multiply, .integer m, .integer n => .ofWhole (m * n)
  | .divide, .integer m, .integer n => if n = 0 then .null else .ofWhole (m.tdiv n)
  | .remainder, .integer m, .integer n => if n = 0 then .null else .ofWhole (m.tmod n)
  | .add, _, _ => .ofReal (a.asReal.add b.asReal)
  | .subtract, _, _ => .ofReal (a.asReal.add b.asReal.neg)
  | .multiply, _, _ => .ofReal (a.asReal.mul b.asReal)
  | .divide, _, _ => if b.asReal.position = some 0 then .null else .ofReal (a.asReal.div b.asReal)
  | .remainder, _, _ =>
    if b.asWhole = 0 then .null else .real (.ofInt .double (a.asWhole.tmod b.asWhole))
  | .join, _, _ => .null

def combine (op : Arithmetic) (a b : Cell) : Cell :=
  if op = .join then
    match a.asText?, b.asText? with
    | some s, some t => .text (s ++ t)
    | _, _ => .null
  else if a = .null ∨ b = .null then .null
  else calculate op a.asNumber b.asNumber

/-- Whether an expression is the key.  What is compared with the key is read as a number. -/
def isKey : Expr Nat → Bool
  | .column 0 => true
  | _ => false

def eval (params fields : List Cell) : Expr Nat → Cell
  | .cell c => c
  | .placeholder n => (params[n - 1]?).getD .null
  | .column i => (fields[i]?).getD .null
  | .binary .and a b => both (eval params fields a) (eval params fields b)
  | .binary .or a b => either (eval params fields a) (eval params fields b)
  | .binary op a b =>
    let x := eval params fields a
    let y := eval params fields b
    compareCells op (if isKey b then x.numeric else x) (if isKey a then y.numeric else y)
  | .arithmetic op a b => combine op (eval params fields a) (eval params fields b)
  | .not a =>
    let x := eval params fields a
    if x = .null then .null else .ofBool !x.isTrue
  | .negate a => (eval params fields a).negated
  | .isNull a => .ofBool (eval params fields a = .null)
  | .like a pattern =>
    match (eval params fields a).asText?, (eval params fields pattern).asText? with
    | some s, some p => .ofBool (matchesPattern p s)
    | _, _ => .null

end Automation.Database
