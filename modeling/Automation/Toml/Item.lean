import Automation.Keyed
import Automation.Number.Binary

/-!
TOML documents as tables.

A document is a list of statements: headers, which open a table, and assignments under dotted keys,
which fill the table opened last.  `Document.ofStatements?` puts them together.  How a table came
about decides what may still be added to it, so each keeps its origin; nothing is ever put in place
of something else.
-/

namespace Automation.Toml

inductive Origin where
  /-- Opened by a header. -/
  | opened
  /-- On the way to a table that a header opened. -/
  | passed
  /-- On the way to a value under a dotted key. -/
  | dotted
  /-- Written between braces. -/
  | inline
deriving DecidableEq

/-- What stands under a key.  Of dates and times nothing is kept. -/
inductive Item where
  | string (s : String)
  | integer (n : Int)
  | float (x : Double)
  | bool (b : Bool)
  | moment
  | list (items : List Item)
  | table (origin : Origin) (entries : List (String × Item))
  /-- Tables under one header. -/
  | tables (elements : List (List (String × Item)))

abbrev Entries := Keyed Item

def Entries.put? (key : String) (item : Item) (es : Entries) : Option Entries :=
  if (Keyed.get? es key).isSome then none else some (Keyed.insert key item es)

/-- Adds a value under a dotted key.  Tables on its way may be there already unless a header opened
them or they stand between braces, and the last of them has to be there for dotted keys. -/
def Entries.assign? (last : String) (item : Item) : (path : List String) → Entries → Option Entries
  | [], es => es.put? last item
  | key :: path, es =>
    match Keyed.get? es key with
    | none => (assign? last item path []).map fun inner => Keyed.insert key (.table .dotted inner) es
    | some (.table .dotted inner) =>
      (assign? last item path inner).map fun inner => Keyed.insert key (.table .dotted inner) es
    | some (.table .passed inner) =>
      if path.isEmpty then none
      else (assign? last item path inner).map fun inner => Keyed.insert key (.table .passed inner) es
    | some (.tables elements) =>
      match path, elements.getLast? with
      | _ :: _, some inner =>
        (assign? last item path inner).map fun inner =>
          Keyed.insert key (.tables (elements.dropLast ++ [inner])) es
      | _, _ => none
    | some _ => none

def Entries.within? (change : Entries → Option Entries) :
    (path : List String) → Entries → Option Entries
  | [], es => change es
  | key :: path, es =>
    match Keyed.get? es key with
    | none => (within? change path []).map fun inner => Keyed.insert key (.table .passed inner) es
    | some (.table .inline _) => none
    | some (.table origin inner) =>
      (within? change path inner).map fun inner => Keyed.insert key (.table origin inner) es
    | some (.tables elements) =>
      match elements.getLast? with
      | some inner =>
        (within? change path inner).map fun inner =>
          Keyed.insert key (.tables (elements.dropLast ++ [inner])) es
      | none => none
    | some _ => none

def Entries.open? (key : String) (es : Entries) : Option Entries :=
  match Keyed.get? es key with
  | none => some (Keyed.insert key (.table .opened []) es)
  | some (.table .passed inner) => some (Keyed.insert key (.table .opened inner) es)
  | some _ => none

def Entries.append? (key : String) (es : Entries) : Option Entries :=
  match Keyed.get? es key with
  | none => some (Keyed.insert key (.tables [[]]) es)
  | some (.tables elements) => some (Keyed.insert key (.tables (elements ++ [[]])) es)
  | some _ => none

/-- A dotted key: the tables on its way and the key in the last of them. -/
structure Path where
  way : List String
  last : String

namespace Path

def keys (p : Path) : List String := p.way ++ [p.last]

def ofKeys? (keys : List String) : Option Path :=
  keys.getLast?.map fun last => ⟨keys.dropLast, last⟩

end Path

inductive Statement where
  | header (p : Path)
  | element (p : Path)
  | assignment (p : Path) (item : Item)

/-- What has been put together, and the table that is being filled. -/
structure Document where
  current : List String
  entries : Entries

namespace Document

def empty : Document := ⟨[], []⟩

def add? (d : Document) : Statement → Option Document
  | .header p => (Entries.within? (Entries.open? p.last) p.way d.entries).map fun es => ⟨p.keys, es⟩
  | .element p =>
    (Entries.within? (Entries.append? p.last) p.way d.entries).map fun es => ⟨p.keys, es⟩
  | .assignment p item =>
    (Entries.within? (Entries.assign? p.last item p.way) d.current d.entries).map fun es =>
      ⟨d.current, es⟩

/-- The table that statements make, unless one of them comes into another's way. -/
def ofStatements? (statements : List Statement) : Option Entries :=
  (statements.foldlM add? empty).map entries

end Document

def Entries.ofAssignments? (assignments : List (Path × Item)) : Option Entries :=
  assignments.foldlM (fun es (p, item) => es.assign? p.last item p.way) []

namespace Item

/-- The values of a record under their names.  A list gives them in the order of the names, and what
a moment is made of goes under none. -/
def fields? (names : List String) : Item → Option Entries
  | .table _ es => some es
  | .list items => some (names.zip items)
  | .tables elements => some (names.zip (elements.map (.table .opened)))
  | .moment => some []
  | _ => none

def string? : Item → Option String
  | .string s => some s
  | _ => none

def natBelow? (bound : Nat) : Item → Option Nat
  | .integer n => if 0 ≤ n ∧ n < bound then some n.toNat else none
  | _ => none

def binary? (f : FloatFormat) : Item → Option (Binary f)
  | .integer n => some (.ofInt f n)
  | .float x => some (x.convert f)
  | _ => none

/-- One of several names.  It may also be the only key of a table, with an empty table under it. -/
def variant? {α : Type} (names : List (String × α)) : Item → Option α
  | .string s => names.lookup s
  | .table _ [(s, .table _ [])] => names.lookup s
  | _ => none

end Item

def Entries.read? {α : Type} (es : Entries) (key : String) (read : Item → Option α) (default : α) :
    Option α :=
  match Keyed.get? es key with
  | some item => read item
  | none => some default

end Automation.Toml
