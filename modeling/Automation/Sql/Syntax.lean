import Automation.Database.Cell
import Automation.Sql.Token

/-!
SQL statements as read.

An expression is read over names and resolved over the columns of a table: `Expr.resolve` puts the
place of a column for its name and fails on a name that no column has.
-/

namespace Automation.Sql

open Database (Cell)

inductive Fault where
  | near (t : Token)
  | unrecognized (t : Token)
  | incomplete
  /-- The text holds no statement. -/
  | empty
  | noTable (name : List Char)
  | noColumn (name : List Char) (offset : Option Nat)
  | notAColumnOf (table name : List Char)
  | valueCount (values columns : Nat)
  | rowLength (table : List Char) (columns values : Nat)

def Fault.message (sql : List Char) : Fault → List Char
  | near t => located ("near \"".toList ++ t.text ++ "\": syntax error".toList) t.offset
  | unrecognized t =>
    located ("unrecognized token: \"".toList ++ t.text ++ "\"".toList) t.offset
  | incomplete => "incomplete input".toList
  | empty => "not an error".toList
  | noTable name => "no such table: ".toList ++ name
  | noColumn name (some offset) => located ("no such column: ".toList ++ name) offset
  | noColumn name none => "no such column: ".toList ++ name
  | notAColumnOf table name =>
    "table ".toList ++ table ++ " has no column named ".toList ++ name
  | valueCount values columns =>
    Nat.toDigits 10 values ++ " values for ".toList ++ Nat.toDigits 10 columns
      ++ " columns".toList
  | rowLength table columns values =>
    "table ".toList ++ table ++ " has ".toList ++ Nat.toDigits 10 columns ++ " columns but ".toList
      ++ Nat.toDigits 10 values ++ " values were supplied".toList
where
  located (what : List Char) (offset : Nat) : List Char :=
    what ++ " in ".toList ++ sql ++ " at offset ".toList ++ Nat.toDigits 10 offset

/-- A name as it is written, with what qualifies it in front. -/
structure Name where
  parts : List (List Char)
  /-- Whether it stands in double quotes, so that it is a text where no column has it. -/
  doubleQuoted : Bool
  offset : Nat

namespace Name

def text (n : Name) : List Char := ['.'].intercalate n.parts

def last (n : Name) : List Char := n.parts.getLast?.getD []

end Name

def sameName (a b : List Char) : Bool := a.map Char.toLower = b.map Char.toLower

inductive Operator where
  | or
  | and
  | eq
  | ne
  | lt
  | le
  | gt
  | ge
deriving DecidableEq

inductive Arithmetic where
  | add
  | subtract
  | multiply
  | divide
  | remainder
  /-- Puts one text after the other. -/
  | join
deriving DecidableEq

/-- An expression over columns that `ν` stands for. -/
inductive Expr (ν : Type) where
  | cell (c : Cell)
  | placeholder (n : Nat)
  | column (x : ν)
  | binary (op : Operator) (a b : Expr ν)
  | arithmetic (op : Arithmetic) (a b : Expr ν)
  | not (a : Expr ν)
  | negate (a : Expr ν)
  | isNull (a : Expr ν)
  | like (a pattern : Expr ν)

namespace Expr

variable {ν : Type}

def oneOf (a : Expr ν) : List (Expr ν) → Expr ν
  | [] => cell (.integer 0)
  | [b] => binary .eq a b
  | b :: r => binary .or (binary .eq a b) (a.oneOf r)

def between (a low high : Expr ν) : Expr ν :=
  binary .and (binary .ge a low) (binary .le a high)

def resolve (columns : List (List Char)) : Expr Name → Except Fault (Expr Nat)
  | cell c => .ok (cell c)
  | placeholder n => .ok (placeholder n)
  | column x =>
    match columns.findIdx? (sameName x.last) with
    | some i => .ok (column i)
    | none =>
      if x.doubleQuoted ∧ x.parts.length = 1 then .ok (cell (.text x.last))
      else .error (.noColumn x.text (some x.offset))
  | binary op a b => do pure (binary op (← a.resolve columns) (← b.resolve columns))
  | arithmetic op a b => do pure (arithmetic op (← a.resolve columns) (← b.resolve columns))
  | not a => (a.resolve columns).map not
  | negate a => (a.resolve columns).map negate
  | isNull a => (a.resolve columns).map isNull
  | like a pattern => do pure (like (← a.resolve columns) (← pattern.resolve columns))

end Expr

inductive Item where
  /-- All columns of the table. -/
  | all
  /-- How many rows there are, in place of the rows. -/
  | rowCount (label : Option (List Char)) (written : List Char)
  /-- A value, under a name of its own or under the text it is written as. -/
  | value (e : Expr Name) (label : Option (List Char)) (written : List Char)

structure SortKey where
  key : Expr Name
  descending : Bool

inductive Command where
  | select (items : List Item) (table : Option Name) (condition : Option (Expr Name))
      (order : List SortKey) (limit : Option (Expr Name))
  | insert (table : Name) (columns : Option (List Name)) (rows : List (List (Expr Name)))
      (returning : List Item)
  | update (table : Name) (settings : List (Name × Expr Name)) (condition : Option (Expr Name))
      (returning : List Item)
  | delete (table : Name) (condition : Option (Expr Name)) (returning : List Item)

end Automation.Sql
