import Automation.Database.Cell

/-!
Tables.

The first column of a table is its key, an integer; the others take cells of any class.  Rows are kept
in the order of their keys.
-/

namespace Automation.Database

/-- A row: its key and the cells of the other columns. -/
structure Row where
  key : Int
  cells : List Cell
deriving DecidableEq

structure Table where
  name : List Char
  keyColumn : List Char
  columns : List (List Char)
  rows : List Row
  /-- Whether the key is among the columns where all of them are meant. -/
  showsKey : Bool := true
deriving DecidableEq

namespace Row

def fields (r : Row) : List Cell := .integer r.key :: r.cells

end Row

namespace Table

def fieldNames (t : Table) : List (List Char) := t.keyColumn :: t.columns

/-- The places of the columns that are meant where none is named. -/
def shownColumns (t : Table) : List Nat :=
  (List.range t.fieldNames.length).drop (if t.showsKey then 0 else 1)

def hasKey (t : Table) (key : Int) : Bool := t.rows.any fun r => r.key = key

def putRow (row : Row) : List Row → List Row
  | [] => [row]
  | r :: rest => if row.key < r.key then row :: r :: rest else r :: putRow row rest

def nextKey (t : Table) : Int :=
  match t.rows.getLast? with
  | some r => r.key + 1
  | none => 1

def record (t : Table) (r : Row) : Record :=
  Keyed.ofList ((t.fieldNames.map String.ofList).zip (r.fields.map Cell.value))

def records (t : Table) : List Record := t.rows.map t.record

end Table

end Automation.Database
