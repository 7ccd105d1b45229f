import Automation.Sql.Syntax

/-!
Reading SQL statements.

A reader takes tokens off a list and gives up at the first that does not fit.  Expressions nest, so
their readers carry a bound on how deep, which the number of tokens gives.
-/

namespace Automation.Sql

open Database (Cell)

abbrev Reader (α : Type) := StateT (List Token) (Except Fault) α

namespace Reader

variable {α : Type}

def unexpected : List Token → Fault
  | [] => .incomplete
  | t :: _ => if t.kind = .unknown then .unrecognized t else .near t

def fail : Reader α := fun ts => .error (unexpected ts)

def reserved : List String :=
  ["select", "from", "where", "order", "by", "limit", "insert", "into", "values", "update", "set",
    "delete", "returning", "and", "or", "not", "null", "is", "as", "group", "having", "union",
    "join", "on", "in", "case", "when", "then", "else", "create", "drop", "table", "distinct",
    "default", "isnull", "notnull", "between", "exists", "using", "alter", "index", "unique"]

def isKeyword (k : String) (t : Token) : Bool :=
  match t.kind with
  | .word w => sameName w k.toList
  | _ => false

def keyword? (k : String) : Reader Bool := fun ts =>
  match ts with
  | t :: r => if isKeyword k t then .ok (true, r) else .ok (false, ts)
  | [] => .ok (false, [])

def keyword (k : String) : Reader Unit := do
  if !(← keyword? k) then fail

def symbol? (s : String) : Reader Bool := fun ts =>
  match ts with
  | t :: r => if t.kind = .symbol s.toList then .ok (true, r) else .ok (false, ts)
  | [] => .ok (false, [])

def symbol (s : String) : Reader Unit := do
  if !(← symbol? s) then fail

def part? : Reader (Option (List Char × Bool × Nat)) := fun ts =>
  match ts with
  | t :: r =>
    match t.kind with
    | .word w =>
      if reserved.any fun k => sameName w k.toList then .ok (none, ts)
      else .ok (some (w, false, t.offset), r)
    | .quoted s double => .ok (some (s, double, t.offset), r)
    | _ => .ok (none, ts)
  | [] => .ok (none, [])

def moreParts : Nat → Reader (List (List Char))
  | 0 => pure []
  | bound + 1 => do
    if ← symbol? "." then
      match ← part? with
      | some (s, _, _) => pure (s :: (← moreParts bound))
      | none => fail
    else pure []

def name? : Reader (Option Name) := do
  match ← part? with
  | some (s, double, offset) => pure (some ⟨s :: (← moreParts 2), double, offset⟩)
  | none => pure none

def name : Reader Name := do
  match ← name? with
  | some n => pure n
  | none => fail

def separated (item : Reader α) : Nat → Reader (List α)
  | 0 => fail
  | bound + 1 => do
    let x ← item
    if ← symbol? "," then pure (x :: (← separated item bound)) else pure [x]

def list (item : Reader α) : Reader (List α) := do
  separated item ((← get).length + 1)

/-- The operators that symbols stand for, with how tightly they bind. -/
def operators : List (String × (Expr Name → Expr Name → Expr Name) × Nat) :=
  [("=", .binary .eq, 4), ("==", .binary .eq, 4), ("!=", .binary .ne, 4), ("<>", .binary .ne, 4),
    ("<", .binary .lt, 5), ("<=", .binary .le, 5), (">", .binary .gt, 5), (">=", .binary .ge, 5),
    ("+", .arithmetic .add, 7), ("-", .arithmetic .subtract, 7), ("*", .arithmetic .multiply, 8),
    ("/", .arithmetic .divide, 8), ("%", .arithmetic .remainder, 8), ("||", .arithmetic .join, 9)]

/-- The operator that comes next, if it binds at least so tightly. -/
def operator? (tightness : Nat) (ts : List Token) :
    Option ((Expr Name → Expr Name → Expr Name) × Nat × List Token) :=
  match ts with
  | t :: r =>
    let found :=
      if isKeyword "or" t then some (.binary .or, 1)
      else if isKeyword "and" t then some (.binary .and, 2)
      else
        match t.kind with
        | .symbol s => operators.lookup (.ofList s)
        | _ => none
    (found.filter fun (_, n) => tightness ≤ n).map fun (op, n) => (op, n, r)
  | [] => none

def literal? (t : Token) : Option (Expr Name) :=
  match t.kind with
  | .number s => some (.cell (Cell.ofNumberText s))
  | .string s => some (.cell (.text s))
  | .blob bytes => some (.cell (.blob bytes))
  | .placeholder n => some (.placeholder (n.getD 0))
  | .word w =>
    if sameName w "null".toList then some (.cell .null)
    else if sameName w "true".toList then some (.cell (.integer 1))
    else if sameName w "false".toList then some (.cell (.integer 0))
    else none
  | _ => none

mutual

def operand : Nat → Reader (Expr Name)
  | 0 => fail
  | bound + 1 => do
    if ← keyword? "not" then
      return .not (← expression bound 3)
    if ← symbol? "(" then
      let e ← expression bound 0
      symbol ")"
      return e
    if ← symbol? "-" then
      match ← get with
      | ⟨.number s, _, _⟩ :: r =>
        set r
        return .cell (Cell.ofNumberText ('-' :: s))
      | _ => return .negate (← operand bound)
    if ← symbol? "+" then
      return ← operand bound
    match ← get with
    | t :: r =>
      match literal? t with
      | some e =>
        set r
        pure e
      | none => pure (.column (← name))
    | [] => fail

def chain (tightness : Nat) : Nat → Expr Name → Reader (Expr Name)
  | 0, _ => fail
  | bound + 1, left => do
    if tightness ≤ 4 then
      if ← keyword? "is" then
        let negated ← keyword? "not"
        let right ← expression bound 5
        let test : Expr Name := match right with
          | .cell .null => .isNull left
          | _ => .binary .or (.binary .eq left right)
            (.binary .and (.isNull left) (.isNull right))
        return ← chain tightness bound (if negated then .not test else test)
      if ← keyword? "isnull" then
        return ← chain tightness bound (.isNull left)
      if ← keyword? "notnull" then
        return ← chain tightness bound (.not (.isNull left))
      let ts ← get
      let negated ← keyword? "not"
      let outcome (e : Expr Name) := if negated then .not e else e
      if ← keyword? "like" then
        let pattern ← expression bound 5
        return ← chain tightness bound (outcome (.like left pattern))
      if ← keyword? "in" then
        symbol "("
        if ← symbol? ")" then
          return ← chain tightness bound (outcome (left.oneOf []))
        let choices ← separated (expression bound 0) bound
        symbol ")"
        return ← chain tightness bound (outcome (left.oneOf choices))
      if ← keyword? "between" then
        let low ← expression bound 5
        keyword "and"
        let high ← expression bound 5
        return ← chain tightness bound (outcome (left.between low high))
      if negated then
        if ← keyword? "null" then
          return ← chain tightness bound (.not (.isNull left))
        set ts
    match operator? tightness (← get) with
    | some (join, n, r) =>
      set r
      let right ← expression bound (n + 1)
      chain tightness bound (join left right)
    | none => pure left

/-- Reads an expression whose operators bind at least so tightly. -/
def expression : Nat → Nat → Reader (Expr Name)
  | 0, _ => fail
  | bound + 1, tightness => do
    let left ← operand bound
    chain tightness bound left

end

def expr : Reader (Expr Name) := do
  expression (4 * ((← get).length + 1)) 0

def slice (s : List Char) (start stop : Nat) : List Char :=
  (s.foldl (fun (offset, taken) c =>
    (offset + c.utf8Size,
      if start ≤ offset ∧ offset < stop then taken ++ [c] else taken)) (0, [])).2

def endOf (t : Token) : Nat := t.offset + Token.byteLength t.text

def writtenText (sql : List Char) (before after : List Token) : List Char :=
  let taken := before.take (before.length - after.length)
  match taken.head?, taken.getLast? with
  | some a, some b => slice sql a.offset (endOf b)
  | _, _ => []

/-- Takes the call that counts rows, if it comes next. -/
def rowCount? : Reader Bool := fun ts =>
  match ts with
  | t :: a :: b :: c :: r =>
    if isKeyword "count" t ∧ a.kind = .symbol ['('] ∧ b.kind = .symbol ['*']
        ∧ c.kind = .symbol [')'] then .ok (true, r)
    else .ok (false, ts)
  | _ => .ok (false, ts)

def label? : Reader (Option (List Char)) := do
  if ← keyword? "as" then
    match ← get with
    | ⟨.string s, _, _⟩ :: r =>
      set r
      pure (some s)
    | _ => pure (some (← name).last)
  else
    pure ((← part?).map fun (s, _, _) => s)

def item (sql : List Char) : Reader Item := do
  if ← symbol? "*" then
    return .all
  let before ← get
  if ← rowCount? then
    let written := writtenText sql before (← get)
    return .rowCount (← label?) written
  let e ← expr
  let written := writtenText sql before (← get)
  pure (.value e (← label?) written)

def condition? : Reader (Option (Expr Name)) := do
  if ← keyword? "where" then pure (some (← expr)) else pure none

def returning (sql : List Char) : Reader (List Item) := do
  if ← keyword? "returning" then list (item sql) else pure []

def sortKey : Reader SortKey := do
  let e ← expr
  if ← keyword? "desc" then pure ⟨e, true⟩
  else
    discard (keyword? "asc")
    pure ⟨e, false⟩

def select (sql : List Char) : Reader Command := do
  let items ← list (item sql)
  let table ← if ← keyword? "from" then some <$> name else pure none
  let condition ← condition?
  let order ← if ← keyword? "order" then do
      keyword "by"
      list sortKey
    else pure []
  let limit ← if ← keyword? "limit" then some <$> expr else pure none
  pure (.select items table condition order limit)

def row : Reader (List (Expr Name)) := do
  symbol "("
  let values ← list expr
  symbol ")"
  pure values

def insert (sql : List Char) : Reader Command := do
  keyword "into"
  let table ← name
  let columns ← if ← symbol? "(" then do
      let columns ← list name
      symbol ")"
      pure (some columns)
    else pure none
  keyword "values"
  let rows ← list row
  pure (.insert table columns rows (← returning sql))

def setting : Reader (Name × Expr Name) := do
  let column ← name
  symbol "="
  pure (column, ← expr)

def update (sql : List Char) : Reader Command := do
  let table ← name
  keyword "set"
  let settings ← list setting
  let condition ← condition?
  pure (.update table settings condition (← returning sql))

def delete (sql : List Char) : Reader Command := do
  keyword "from"
  let table ← name
  let condition ← condition?
  pure (.delete table condition (← returning sql))

def command (sql : List Char) : Reader Command := do
  let c ←
    if ← keyword? "select" then select sql
    else if ← keyword? "insert" then insert sql
    else if ← keyword? "update" then update sql
    else if ← keyword? "delete" then delete sql
    else fail
  if !(← get).isEmpty then fail
  pure c

end Reader

/-- Numbers the placeholders that have no number, each by one more than the greatest so far. -/
def numberPlaceholders : (greatest : Nat) → List Token → List Token
  | _, [] => []
  | greatest, t :: r =>
    match t.kind with
    | .placeholder none =>
      { t with kind := .placeholder (some (greatest + 1)) } :: numberPlaceholders (greatest + 1) r
    | .placeholder (some n) => t :: numberPlaceholders (max greatest n) r
    | _ => t :: numberPlaceholders greatest r

def statementTokens (sql : List Char) : List Token :=
  let ends (t : Token) : Bool := t.kind = .symbol [';']
  numberPlaceholders 0 (((Token.list sql).dropWhile ends).takeWhile fun t => !ends t)

/-- How many values a statement takes: as many as the greatest number of a placeholder. -/
def placeholderCount (ts : List Token) : Nat :=
  ts.foldl (fun n t =>
    match t.kind with
    | .placeholder (some k) => max n k
    | _ => n) 0

def Command.ofText (sql : List Char) : Except Fault Command :=
  ((Reader.command sql).run (statementTokens sql)).map Prod.fst

end Automation.Sql
