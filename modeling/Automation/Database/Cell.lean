import Automation.Comparison
import Automation.Json.Printer
import Automation.Text.Utf8

/-!
Values as a database stores them.

A cell keeps the storage class it was bound with: `ofValue` binds a value, and `value` reads a cell
back.  Cells of different classes are ordered by their classes: null, numbers, texts, bytes.
-/

namespace Automation.Database

inductive Cell where
  | null
  | integer (n : Int)
  | real (x : Double)
  | text (s : List Char)
  | blob (bytes : List UInt8)
deriving DecidableEq, Inhabited

namespace Cell

/-- The cell for a value that is bound to a placeholder.  A number is an integer where 63 bits and a
sign hold it; containers are stored as their text. -/
def ofValue : Value → Cell
  | .null => .null
  | .bool b => .integer (if b then 1 else 0)
  | .number n =>
    match n.toInt64? with
    | some i => .integer i
    | none => .real n.toDouble
  | .string s => .text s.toList
  | v => .text (Json.print v)

/-- The value read from a cell.  Bytes are a list of numbers; infinities are null. -/
def value : Cell → Value
  | null => .null
  | integer n => ((Number.ofInt? n).map .number).getD .null
  | real x => .ofDouble x
  | text s => .ofText s
  | blob bytes => .array (bytes.map fun b => .ofNat b.toNat)

/-! ## Order -/

def position? : Cell → Option Int
  | integer n => some (n * FloatFormat.double.one)
  | real x => x.position
  | _ => none

def orderLists (f : α → Nat) : List α → List α → Ordering
  | [], [] => .eq
  | [], _ => .lt
  | _, [] => .gt
  | a :: r, b :: s => (compare (f a) (f b)).then (orderLists f r s)

/-- Infinities lie outside of all numbers. -/
def orderNumbers (a b : Cell) : Ordering :=
  let bound : Cell → Int
    | real (.infinite true) => -1
    | real (.infinite false) => 1
    | _ => 0
  (compare (bound a) (bound b)).then
    (compare ((position? a).getD 0) ((position? b).getD 0))

def rank : Cell → Nat
  | null => 0
  | integer _ | real _ => 1
  | text _ => 2
  | blob _ => 3

def order (a b : Cell) : Ordering :=
  (compare a.rank b.rank).then
    (match a, b with
    | text s, text t => orderLists Char.toNat s t
    | blob s, blob t => orderLists UInt8.toNat s t
    | integer m, integer n => compare m n
    | null, null => .eq
    | _, _ => orderNumbers a b)

/-! ## Conversions -/

def leastInt64 : Int := -9223372036854775808

def greatestInt64 : Int := 9223372036854775807

def isInt64 (n : Int) : Bool := leastInt64 ≤ n && n ≤ greatestInt64

/-- A number text as a cell: an integer where no point and no exponent stand in it and 63 bits hold
it. -/
def ofNumberText (s : List Char) : Cell :=
  let (negative, digits) := splitSign s
  let n : Int := Nat.ofDigitChars 10 digits 0
  let n := if negative then -n else n
  if digits.all Char.isDigit && isInt64 n then .integer n
  else .real ((doubleOf? s).getD .zero)

def wholeNumber? : Double → Option Int
  | .finite negative size =>
    let n : Int := if negative then -(size.whole : Int) else size.whole
    if size.isWhole && isInt64 n then some n else none
  | _ => none

/-- A cell with its text read as a number, if it spells one. -/
def numeric : Cell → Cell
  | text s =>
    let t := Text.trim s
    if !t.isEmpty && numericPrefix t = t then
      match ofNumberText t with
      | real x =>
        match wholeNumber? x with
        | some n => integer n
        | none => real x
      | c => c
    else text s
  | c => c

/-- The number a cell counts as where a truth value is wanted. -/
def isTrue : Cell → Bool
  | null => false
  | integer n => n ≠ 0
  | real x => x ≠ .zero && x.position ≠ some 0
  | text s => (ofNumberText (numericPrefix (Text.trim s))).position? != some 0
  | blob _ => false

/-- The first digits of a decimal, rounded half up. -/
def firstDigits (count : Nat) (d : Decimal) : Decimal :=
  let excess := Decimal.width d.digits - count
  if excess = 0 then d
  else
    let unit := Nat.pow 10 excess
    Decimal.strip ((d.digits + unit / 2) / unit) (d.exponent + excess)

/-- How a real is written where a text is wanted: with fifteen digits at most, and always with a
point. -/
def realText (x : Double) : List Char :=
  match x with
  | .finite negative size =>
    let d := firstDigits 15 size.shortest
    let sign := if negative && size.units ≠ 0 then ['-'] else []
    if -5 < d.place ∧ d.place < 15 then sign ++ d.layoutPositional true
    else
      let ds := Nat.toDigits 10 d.digits
      let exponent := Nat.toDigits 10 d.place.natAbs
      sign ++ ds.take 1 ++ ['.'] ++ (if ds.length = 1 then ['0'] else ds.drop 1)
        ++ ['e', if d.place < 0 then '-' else '+']
        ++ (if exponent.length = 1 then '0' :: exponent else exponent)
  | .infinite negative => (if negative then ['-'] else []) ++ "Inf".toList
  | .nan => []

def asText? : Cell → Option (List Char)
  | null => none
  | integer n => some (Number.intText n)
  | real x => some (realText x)
  | text s => some s
  | blob bytes => some (Utf8.decode bytes)

end Cell

/-- Whether a text matches a pattern, in which `%` stands for any characters and `_` for one.  Letters
of ASCII match in either case. -/
def matchesPattern : (pattern s : List Char) → Bool
  | [], s => s.isEmpty
  | '%' :: p, [] => matchesPattern p []
  | '%' :: p, c :: s => matchesPattern p (c :: s) || matchesPattern ('%' :: p) s
  | '_' :: p, _ :: s => matchesPattern p s
  | a :: p, c :: s => a.toLower = c.toLower && matchesPattern p s
  | _ :: _, [] => false
termination_by pattern s => (pattern.length + s.length, pattern.length)

end Automation.Database
