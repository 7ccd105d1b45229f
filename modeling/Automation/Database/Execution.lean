import Automation.Database.Evaluation
import Automation.Sql.Reader
import Automation.Sql.Statement

/-!
Carrying out SQL statements.

A statement is prepared against the tables there are, then given its values, and then carried out: as
a whole or, when it fails, not at all.
-/

namespace Automation.Database

open Sql (Expr Name Item Command Fault)

inductive Error where
  | badText (sql : List Char) (f : Fault)
  | parameterCount (given needed : Nat)
  | notUnique (table column : List Char)
  | typeMismatch
  | readOnly
  /-- Rows came where a count was wanted. -/
  | returnedRows

def Error.message : Error → List Char
  | badText sql f => f.message sql
  | parameterCount given needed =>
    "Wrong number of parameters passed to query. Got ".toList ++ Nat.toDigits 10 given
      ++ ", needed ".toList ++ Nat.toDigits 10 needed
  | notUnique table column => "UNIQUE constraint failed: ".toList ++ table ++ '.' :: column
  | typeMismatch => "datatype mismatch".toList
  | readOnly => "attempt to write a readonly database".toList
  | returnedRows => "Execute returned results - did you mean to call query?".toList

abbrev Shown := List Char × Expr Nat

inductive Prepared where
  | select (table : Option Table) (counted : Bool) (shown : List Shown)
      (condition : Option (Expr Nat)) (order : List (Expr Nat × Bool)) (limit : Option (Expr Nat))
  | insert (table : Table) (columns : List Nat) (rows : List (List (Expr Nat)))
      (returning : List Shown)
  | update (table : Table) (settings : List (Nat × Expr Nat)) (condition : Option (Expr Nat))
      (returning : List Shown)
  | delete (table : Table) (condition : Option (Expr Nat)) (returning : List Shown)

abbrev Tables := List Table

namespace Tables

/-- The table of a name, which may be qualified by the name of the main database. -/
def find (ts : Tables) (n : Name) : Except Fault Table :=
  let known := match n.parts with
    | [_] => true
    | [schema, _] => Sql.sameName schema "main".toList
    | _ => false
  match ts.find? fun t => known && Sql.sameName t.name n.last with
  | some t => .ok t
  | none => .error (.noTable n.text)

def put (ts : Tables) (t : Table) : Tables :=
  ts.map fun old => if old.name = t.name then t else old

end Tables

/-! ## Preparing -/

/-- What an item shows, `all` being the places of the columns that `*` stands for.  How many rows there
are stands behind the columns. -/
def prepareItem (columns : List (List Char)) (all : List Nat) : Item → Except Fault (List Shown)
  | .all => .ok (all.filterMap fun i => columns[i]?.map (·, .column i))
  | .rowCount label written => .ok [(label.getD written, .column columns.length)]
  | .value e label written => do
    let e ← e.resolve columns
    let ownName := match e with
      | .column i => columns[i]?.getD written
      | _ => written
    pure [(label.getD ownName, e)]

def prepareItems (columns : List (List Char)) (all : List Nat) (items : List Item) :
    Except Fault (List Shown) := do
  let shown ← items.mapM (prepareItem columns all)
  pure shown.flatten

/-- What a sort key stands for: something shown under that name, or a value of its own. -/
def prepareSortKey (columns : List (List Char)) (shown : List Shown) (k : Sql.SortKey) :
    Except Fault (Expr Nat × Bool) :=
  let labelled : Option Shown := match k.key with
    | .column x => shown.find? fun (label, _) => x.parts.length = 1 && Sql.sameName label x.last
    | .cell (.integer n) => if 0 < n then shown[n.toNat - 1]? else none
    | _ => none
  match labelled with
  | some (_, e) => .ok (e, k.descending)
  | none => (k.key.resolve columns).map (·, k.descending)

def columnIndex (t : Table) (missing : Name → Fault) (n : Name) : Except Fault Nat :=
  match t.fieldNames.findIdx? (Sql.sameName n.last) with
  | some i => .ok i
  | none => .error (missing n)

def prepare (ts : Tables) : Command → Except Fault Prepared
  | .select items table condition order limit => do
    let table ← table.mapM ts.find
    let columns := (table.map Table.fieldNames).getD []
    let shown ← prepareItems columns ((table.map Table.shownColumns).getD []) items
    let condition ← condition.mapM (Expr.resolve columns)
    let order ← order.mapM (prepareSortKey columns shown)
    let limit ← limit.mapM (Expr.resolve [])
    let counted := items.any fun i => match i with
      | .rowCount _ _ => true
      | _ => false
    pure (.select table counted shown condition order limit)
  | .insert table columns rows returning => do
    let t ← ts.find table
    let indices ← match columns with
      | none => pure t.shownColumns
      | some names => names.mapM (columnIndex t fun n => .notAColumnOf t.name n.last)
    for row in rows do
      if row.length ≠ indices.length then
        throw (match columns with
          | none => .rowLength t.name indices.length row.length
          | some _ => .valueCount row.length indices.length)
    let rows ← rows.mapM fun row => row.mapM (Expr.resolve [])
    pure (.insert t indices rows (← prepareItems t.fieldNames t.shownColumns returning))
  | .update table settings condition returning => do
    let t ← ts.find table
    let settings ← settings.mapM fun (n, e) => do
      let i ← columnIndex t (fun n => .noColumn n.last none) n
      pure (i, ← e.resolve t.fieldNames)
    let condition ← condition.mapM (Expr.resolve t.fieldNames)
    pure (.update t settings condition (← prepareItems t.fieldNames t.shownColumns returning))
  | .delete table condition returning => do
    let t ← ts.find table
    let condition ← condition.mapM (Expr.resolve t.fieldNames)
    pure (.delete t condition (← prepareItems t.fieldNames t.shownColumns returning))

def Prepared.writes : Prepared → Bool
  | .select .. => false
  | _ => true

/-! ## Carrying out -/

/-- What a statement gives: rows, how many rows it has changed, and the table after it. -/
structure Effect where
  rows : List Record
  changes : Nat
  table : Option Table

def shownRow (params : List Cell) (shown : List Shown) (fields : List Cell) : Record :=
  Keyed.ofList (shown.map fun (name, e) => (.ofList name, (eval params fields e).value))

def meets (params : List Cell) (condition : Option (Expr Nat)) (fields : List Cell) : Bool :=
  match condition with
  | some e => (eval params fields e).isTrue
  | none => true

def sortOrder (params : List Cell) : List (Expr Nat × Bool) → List Cell → List Cell → Ordering
  | [], _, _ => .eq
  | (e, descending) :: r, a, b =>
    let o := (eval params a e).order (eval params b e)
    (if descending then o.swap else o).then (sortOrder params r a b)

/-- How many rows a limit lets through.  A negative one lets all through. -/
def limitOf (params : List Cell) : Option (Expr Nat) → Except Error (Option Nat)
  | none => .ok none
  | some e =>
    match (eval params [] e).numeric with
    | .integer n => .ok (if n < 0 then none else some n.toNat)
    | _ => .error .typeMismatch

def keyOf (c : Cell) : Except Error Int :=
  match c.numeric with
  | .integer n => .ok n
  | .real x =>
    match Cell.wholeNumber? x with
    | some n => .ok n
    | none => .error .typeMismatch
  | _ => .error .typeMismatch

/-- Adds a row, whose key is made up if it is null. -/
def insertRow (t : Table) (fields : List Cell) : Except Error (Table × Row) := do
  let key ← match fields.headD .null with
    | .null => pure t.nextKey
    | c => keyOf c
  if t.hasKey key then throw (.notUnique t.name t.keyColumn)
  let row : Row := ⟨key, fields.drop 1⟩
  pure ({ t with rows := Table.putRow row t.rows }, row)

def updateRow (t : Table) (old : Row) (fields : List Cell) : Except Error (Table × Row) := do
  let key ← keyOf (fields.headD .null)
  let others := t.rows.filter fun r => r.key ≠ old.key
  if others.any fun r => r.key = key then throw (.notUnique t.name t.keyColumn)
  let row : Row := ⟨key, fields.drop 1⟩
  pure ({ t with rows := Table.putRow row others }, row)

def newFields (t : Table) (columns : List Nat) (values : List Cell) : List Cell :=
  (List.range t.fieldNames.length).map fun i => ((columns.zip values).lookup i).getD .null

def setFields (params fields : List Cell) (settings : List (Nat × Expr Nat)) : List Cell :=
  settings.foldl (fun new (i, e) => new.set i (eval params fields e)) fields

/-- The one row that stands for several where they are counted: the last of them, and how many there
are behind it. -/
def countedRow (table : Option Table) (rows : List (List Cell)) : List Cell :=
  let width := (table.map fun t => t.fieldNames.length).getD 0
  rows.getLast?.getD (List.replicate width .null) ++ [.integer rows.length]

def carryOut (params : List Cell) : Prepared → Except Error Effect
  | .select table counted shown condition order limit => do
    let limit ← limitOf params limit
    let rows := match table with
      | some t => t.rows.map Row.fields
      | none => [[]]
    let rows := rows.filter (meets params condition)
    let rows := if counted then [countedRow table rows] else rows
    let rows := if order.isEmpty then rows
      else rows.mergeSort fun a b => sortOrder params order a b ≠ .gt
    let rows := match limit with
      | some n => rows.take n
      | none => rows
    pure ⟨rows.map (shownRow params shown), 0, none⟩
  | .insert t columns rows returning => do
    let (t, added) ← rows.foldlM (fun (t, added) row => do
      let (t, row) ← insertRow t (newFields t columns (row.map (eval params [])))
      pure (t, added ++ [row])) (t, ([] : List Row))
    pure ⟨shownRows returning added, added.length, some t⟩
  | .update t settings condition returning => do
    let met := t.rows.filter fun r => meets params condition r.fields
    let (t, changed) ← met.foldlM (fun (t, changed) r => do
      let (t, row) ← updateRow t r (setFields params r.fields settings)
      pure (t, changed ++ [row])) (t, ([] : List Row))
    pure ⟨shownRows returning changed, changed.length, some t⟩
  | .delete t condition returning =>
    let gone := t.rows.filter fun r => meets params condition r.fields
    let left := t.rows.filter fun r => !meets params condition r.fields
    pure ⟨shownRows returning gone, gone.length, some { t with rows := left }⟩
where
  shownRows (returning : List Shown) (rows : List Row) : List Record :=
    if returning.isEmpty then [] else rows.map fun r => shownRow params returning r.fields

/-- Runs a statement on the tables of a database.  Where a count is wanted and rows come, the change
stays although the statement fails. -/
def run (readOnly : Bool) (ts : Tables) (s : Statement) : Except Error SqlOutcome × Tables :=
  let sql := s.sql.toList
  let params := s.params.map Cell.ofValue
  let needed := Sql.placeholderCount (Sql.statementTokens sql)
  let counts : Except Error Unit :=
    if params.length = needed then .ok ()
    else .error (.parameterCount (min params.length (needed + 1)) needed)
  let effect : Except Error Effect := do
    if (Sql.statementTokens sql).isEmpty then
      counts
      throw (.badText sql .empty)
    let command ← (Command.ofText sql).mapError (.badText sql)
    let prepared ← (prepare ts command).mapError (.badText sql)
    counts
    if readOnly && prepared.writes then throw .readOnly
    carryOut params prepared
  match effect with
  | .error e => (.error e, ts)
  | .ok effect =>
    let after := match effect.table with
      | some t => ts.put t
      | none => ts
    match s.kind with
    | .query => (.ok (.rows effect.rows), after)
    | .execute =>
      if effect.rows.isEmpty then (.ok (.affected effect.changes), after)
      else (.error .returnedRows, after)

end Automation.Database
