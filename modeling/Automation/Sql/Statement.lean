import Automation.Failure
import Automation.Node.Query
import Automation.Template

/-!
SQL statements with placeholders.

A `Shape` is everything about a statement but its values, and `Shape.sql` writes it.  A node's shape
comes from its configuration alone; the scope of a run has a say only in the values bound to the
placeholders (`QueryConfig.parameters`).
-/

namespace Automation

inductive StatementKind where
  | query
  | execute
deriving DecidableEq

/-- A statement with numbered placeholders and the values for them. -/
structure Statement where
  sql : String
  params : List Value
  kind : StatementKind

inductive SqlOutcome where
  | rows (rows : List Record)
  | affected (count : Nat)

namespace Sql

structure Test where
  column : String
  operator : SqlOperator
deriving DecidableEq

/-- A statement without its values. -/
inductive Shape where
  | raw (template : String)
  | select (columns : List String) (table : String) (tests : List Test) (limit : Option Nat)
  | insert (table : String) (columns : List String)
  | update (table : String) (columns : List String) (tests : List Test)
  | delete (table : String) (tests : List Test)
deriving DecidableEq

/-- An identifier in quotes, each of its names by itself. -/
def quoteIdentifier (ident : String) : List Char :=
  List.intercalate ['.'] ((Text.split '.' ident.toList).map fun name => '"' :: (name ++ ['"']))

def commaList (items : List (List Char)) : List Char := List.intercalate [',', ' '] items

/-- A test, whose value has the placeholder numbered `n` if the operator takes one. -/
def testText (n : Nat) (t : Test) : List Char :=
  quoteIdentifier t.column ++ ' ' :: (t.operator.sql.toList ++
    if t.operator.takesValue then ' ' :: Template.placeholder n else [])

/-- Tests in order, with placeholders numbered from `n + 1` on. -/
def testTexts : (n : Nat) → List Test → List (List Char)
  | _, [] => []
  | n, t :: r =>
    testText (n + 1) t :: testTexts (if t.operator.takesValue then n + 1 else n) r

def whereText (n : Nat) (tests : List Test) : List Char :=
  if tests.isEmpty then []
  else " WHERE ".toList ++ List.intercalate " AND ".toList (testTexts n tests)

/-- The placeholders from `n + 1` on, as many as asked for. -/
def placeholderList (n count : Nat) : List (List Char) :=
  (List.range' (n + 1) count).map Template.placeholder

def settings (columns : List String) : List (List Char) :=
  (columns.zip (placeholderList 0 columns.length)).map fun (column, value) =>
    quoteIdentifier column ++ " = ".toList ++ value

namespace Shape

def sql : Shape → List Char
  | raw template => Template.placeholders template.toList
  | select columns table tests limit =>
    "SELECT ".toList ++ (if columns.isEmpty then ['*'] else commaList (columns.map quoteIdentifier))
      ++ " FROM ".toList ++ quoteIdentifier table ++ whereText 0 tests
      ++ (match limit with
        | some n => " LIMIT ".toList ++ Nat.toDigits 10 n
        | none => [])
  | insert table columns =>
    "INSERT INTO ".toList ++ quoteIdentifier table ++ " (".toList
      ++ commaList (columns.map quoteIdentifier) ++ ") VALUES (".toList
      ++ commaList (placeholderList 0 columns.length) ++ ") RETURNING *".toList
  | update table columns tests =>
    "UPDATE ".toList ++ quoteIdentifier table ++ " SET ".toList ++ commaList (settings columns)
      ++ whereText columns.length tests
  | delete table tests => "DELETE FROM ".toList ++ quoteIdentifier table ++ whereText 0 tests

def kind : Shape → StatementKind
  | update _ _ _ | delete _ _ => .execute
  | _ => .query

end Shape

def requireIdentifier (ident : String) : Except Failure Unit :=
  (checkIdentifier ident).mapError .configuration

end Sql

namespace QueryConfig

open Sql

def tests (c : QueryConfig) : List Test := c.predicates.map fun p => ⟨p.column, p.operator⟩

def requireTable (c : QueryConfig) : Except Failure String := do
  match c.table? with
  | some table =>
    requireIdentifier table
    pure table
  | none => .error (.configuration "table required")

def requireValues (c : QueryConfig) (op : String) : Except Failure Unit :=
  if c.values.isEmpty then .error (.configuration ("values required for " ++ op)) else .ok ()

def requirePredicates (c : QueryConfig) (op : String) : Except Failure Unit :=
  if c.predicates.isEmpty then .error (.configuration ("where clause required for " ++ op))
  else .ok ()

def requireTestColumns (c : QueryConfig) : Except Failure Unit :=
  c.predicates.forM fun p => requireIdentifier p.column

def shape (c : QueryConfig) : Except Failure Shape := do
  match c.operation with
  | .raw =>
    match c.query.filter fun q => !Text.allBlank q.toList with
    | some query => pure (.raw query)
    | none => .error (.configuration "query required for raw operation")
  | .select =>
    c.columns.forM requireIdentifier
    let table ← c.requireTable
    c.requireTestColumns
    pure (.select c.columns table c.tests (c.limit.filter (0 < ·)))
  | .insert =>
    c.requireValues "insert"
    c.values.keys.forM requireIdentifier
    let table ← c.requireTable
    pure (.insert table c.values.keys)
  | .update =>
    c.requireValues "update"
    c.requirePredicates "update"
    c.values.keys.forM requireIdentifier
    let table ← c.requireTable
    c.requireTestColumns
    pure (.update table c.values.keys c.tests)
  | .delete =>
    c.requirePredicates "delete"
    let table ← c.requireTable
    c.requireTestColumns
    pure (.delete table c.tests)

def valueParameters (c : QueryConfig) (scope : Record) : List Value :=
  c.values.map fun (_, v) => Template.bindValue scope v

def testParameters (c : QueryConfig) (scope : Record) : List Value :=
  (c.predicates.filter fun p => p.operator.takesValue).map fun p =>
    Template.bindValue scope p.value

/-- The values of the placeholders, in the order of their numbers. -/
def parameters (c : QueryConfig) (scope : Record) : List Value :=
  match c.operation with
  | .raw => Template.bindings scope (c.query.getD "").toList
  | .select | .delete => c.testParameters scope
  | .insert => c.valueParameters scope
  | .update => c.valueParameters scope ++ c.testParameters scope

def statement (c : QueryConfig) (scope : Record) : Except Failure Statement :=
  c.shape.map fun s => ⟨.ofList s.sql, c.parameters scope, s.kind⟩

end QueryConfig

end Automation
