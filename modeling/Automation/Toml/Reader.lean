import Automation.Toml.Scalar
import Automation.Toml.Text

/-!
Reading TOML.

`read?` takes a text apart into statements and puts them together as tables.  The recursion goes by
fuel, one for each character being enough; lists and tables between braces nest less than
`nestingLimit` deep.
-/

namespace Automation.Toml

/-- How deep values may not nest, and how many keys a dotted key may not have. -/
def nestingLimit : Nat := 80

/-! ## Keys -/

def isKeyChar (c : Char) : Bool := c.isAlphanum || c = '_' || c = '-'

/-- A key: bare, or a string on one line. -/
def key? (s : List Char) : Option (String × List Char) :=
  match s with
  | [] => none
  | c :: r =>
    if c = '"' ∨ c = '\'' then Quotes.read ⟨c, false⟩ [] 0 r
    else
      let bare := s.takeWhile isKeyChar
      if bare.isEmpty then none else some (.ofList bare, s.dropWhile isKeyChar)

def keys? : (fuel : Nat) → List Char → Option (List String × List Char)
  | 0, _ => none
  | fuel + 1, s => do
    let (key, s) ← key? (skipBlanks s)
    match skipBlanks s with
    | '.' :: s =>
      let (keys, s) ← keys? fuel s
      some (key :: keys, s)
    | s => some ([key], s)

def path? (s : List Char) : Option (Path × List Char) := do
  let (keys, s) ← keys? (s.length + 1) s
  if nestingLimit ≤ keys.length then none
  some (← Path.ofKeys? keys, s)

/-! ## Values -/

def skipFiller : (comment : Bool) → List Char → Option (List Char)
  | _, '\n' :: s => skipFiller false s
  | _, '\r' :: '\n' :: s => skipFiller false s
  | true, c :: s => if isText c then skipFiller true s else none
  | true, [] => none
  | false, ' ' :: s => skipFiller false s
  | false, '\t' :: s => skipFiller false s
  | false, '#' :: s => skipFiller true s
  | false, s => some s

def after? (c : Char) : List Char → Option (List Char)
  | d :: s => if d = c then some s else none
  | [] => none

mutual

def item? : (fuel depth : Nat) → List Char → Option (Item × List Char)
  | 0, _, _ => none
  | fuel + 1, depth, s =>
    match s with
    | '"' :: _ => (string? s).map fun (x, s) => (.string x, s)
    | '\'' :: _ => (string? s).map fun (x, s) => (.string x, s)
    | '[' :: s => do
      if nestingLimit ≤ depth + 1 then none
      let (items, s) ← items? fuel (depth + 1) (← skipFiller false s)
      some (.list items, s)
    | '{' :: s => do
      if nestingLimit ≤ depth + 1 then none
      match skipBlanks s with
      | '}' :: s => some (.table .inline [], s)
      | s =>
        let (assignments, s) ← assignments? fuel (depth + 1) s
        some (.table .inline (← Entries.ofAssignments? assignments), s)
    | s => scalar? s

/-- Reads the items of a list through its closing bracket.  A comma may stand before that. -/
def items? : (fuel depth : Nat) → List Char → Option (List Item × List Char)
  | 0, _, _ => none
  | _ + 1, _, ']' :: s => some ([], s)
  | fuel + 1, depth, s => do
    let (item, s) ← item? fuel depth s
    match ← skipFiller false s with
    | ',' :: s =>
      let (items, s) ← items? fuel depth (← skipFiller false s)
      some (item :: items, s)
    | s => do some ([item], ← after? ']' s)

def assignments? : (fuel depth : Nat) → List Char → Option (List (Path × Item) × List Char)
  | 0, _, _ => none
  | fuel + 1, depth, s => do
    let (path, s) ← path? s
    let (item, s) ← item? fuel depth (skipBlanks (← after? '=' s))
    match skipBlanks s with
    | ',' :: s =>
      let (more, s) ← assignments? fuel depth s
      some ((path, item) :: more, s)
    | s => do some ([(path, item)], ← after? '}' s)

end

/-! ## Documents -/

def lineEnd? (s : List Char) : Option (List Char) :=
  let s := match skipBlanks s with
    | '#' :: s => s.dropWhile isText
    | s => s
  match s with
  | [] => some []
  | s => newline? s

def statement? (s : List Char) : Option (Statement × List Char) :=
  match s with
  | '[' :: '[' :: s => do
    let (path, s) ← path? s
    some (.element path, ← lineEnd? (← after? ']' (← after? ']' s)))
  | '[' :: s => do
    let (path, s) ← path? s
    some (.header path, ← lineEnd? (← after? ']' s))
  | s => do
    let (path, s) ← path? s
    let (item, s) ← item? (s.length + 1) 0 (skipBlanks (← after? '=' s))
    some (.assignment path item, ← lineEnd? s)

def statements? : (fuel : Nat) → List Char → Option (List Statement)
  | 0, _ => none
  | fuel + 1, s =>
    match skipBlanks s with
    | [] => some []
    | c :: r =>
      if c = '#' ∨ c = '\n' ∨ c = '\r' then do statements? fuel (← lineEnd? (c :: r))
      else do
        let (statement, rest) ← statement? (c :: r)
        some (statement :: (← statements? fuel rest))

/-- The table that a text spells.  A byte order mark may come first. -/
def read? (s : List Char) : Option Entries := do
  let s := match s with
    | '\uFEFF' :: s => s
    | s => s
  Document.ofStatements? (← statements? (s.length + 1) s)

end Automation.Toml
