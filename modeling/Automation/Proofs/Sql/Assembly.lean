import Automation.Sql.Statement

/-!
# Statements in one pass

A `Shape` keeps the text of a statement apart from the values.  `assemble` makes a statement from left
to right instead, with the scope at hand all the way: an identifier is checked and quoted where it
stands, a value is bound where it comes, and its placeholder has the number of values bound by then.

Both refuse the same configurations for the same reason, and make the same statement of all others
(`assemble_eq_statement`).  So what holds of the statements of shapes holds of statements that are made
with the scope at hand: text and values come apart by themselves.

Each part of a pass is bound behind the values bound so far, so its equation is stated for any number
of them; the placeholders of a shape are numbered from there (`bindColumns_eq`, `bindTests_eq`).
-/

namespace Automation

namespace Sql

def quoted (ident : String) : Except Failure (List Char) := do
  requireIdentifier ident
  pure (quoteIdentifier ident)

/-- Binds the tokens of a template behind the values bound so far. -/
def bindPieces (scope : Record) : (bound : List Value) → List Template.Piece →
    List Char × List Value
  | bound, [] => ([], bound)
  | bound, .char c :: r =>
    let (text, bound) := bindPieces scope bound r
    (c :: text, bound)
  | bound, .token path :: r =>
    let bound := bound ++ [(Template.resolve scope path).getD .null]
    let mark := Template.placeholder bound.length
    let (text, bound) := bindPieces scope bound r
    (mark ++ text, bound)

def bindColumns (scope : Record) : (bound : List Value) → Record →
    Except Failure (List (List Char × List Char) × List Value)
  | bound, [] => .ok ([], bound)
  | bound, (column, v) :: r => do
    let column ← quoted column
    let bound := bound ++ [Template.bindValue scope v]
    let mark := Template.placeholder bound.length
    let (columns, bound) ← bindColumns scope bound r
    pure ((column, mark) :: columns, bound)

def bindTests (scope : Record) : (bound : List Value) → List Predicate →
    Except Failure (List (List Char) × List Value)
  | bound, [] => .ok ([], bound)
  | bound, p :: r => do
    let column ← quoted p.column
    let test := column ++ ' ' :: p.operator.sql.toList
    if p.operator.takesValue then
      let bound := bound ++ [Template.bindValue scope p.value]
      let mark := Template.placeholder bound.length
      let (tests, bound) ← bindTests scope bound r
      pure ((test ++ ' ' :: mark) :: tests, bound)
    else
      let (tests, bound) ← bindTests scope bound r
      pure (test :: tests, bound)

def whereClause (tests : List (List Char)) : List Char :=
  if tests.isEmpty then [] else " WHERE ".toList ++ List.intercalate " AND ".toList tests

end Sql

namespace QueryConfig

open Sql

def quotedTable (c : QueryConfig) : Except Failure (List Char) :=
  match c.table? with
  | some table => quoted table
  | none => .error (.configuration "table required")

def assemble (c : QueryConfig) (scope : Record) : Except Failure Statement := do
  match c.operation with
  | .raw =>
    match c.query.filter fun q => !Text.allBlank q.toList with
    | some query =>
      let (text, bound) := bindPieces scope [] (Template.pieces query.toList)
      pure ⟨.ofList text, bound, .query⟩
    | none => .error (.configuration "query required for raw operation")
  | .select =>
    let columns ← c.columns.mapM quoted
    let table ← c.quotedTable
    let (tests, bound) ← bindTests scope [] c.predicates
    let limit := match c.limit.filter (0 < ·) with
      | some n => " LIMIT ".toList ++ Nat.toDigits 10 n
      | none => []
    pure ⟨.ofList ("SELECT ".toList ++ (if columns.isEmpty then ['*'] else commaList columns)
      ++ " FROM ".toList ++ table ++ whereClause tests ++ limit), bound, .query⟩
  | .insert =>
    c.requireValues "insert"
    let (columns, bound) ← bindColumns scope [] c.values
    let table ← c.quotedTable
    pure ⟨.ofList ("INSERT INTO ".toList ++ table ++ " (".toList
      ++ commaList (columns.map Prod.fst) ++ ") VALUES (".toList
      ++ commaList (columns.map Prod.snd) ++ ") RETURNING *".toList), bound, .query⟩
  | .update =>
    c.requireValues "update"
    c.requirePredicates "update"
    let (columns, bound) ← bindColumns scope [] c.values
    let table ← c.quotedTable
    let (tests, bound) ← bindTests scope bound c.predicates
    pure ⟨.ofList ("UPDATE ".toList ++ table ++ " SET ".toList
      ++ commaList (columns.map fun (column, mark) => column ++ " = ".toList ++ mark)
      ++ whereClause tests), bound, .execute⟩
  | .delete =>
    c.requirePredicates "delete"
    let table ← c.quotedTable
    let (tests, bound) ← bindTests scope [] c.predicates
    pure ⟨.ofList ("DELETE FROM ".toList ++ table ++ whereClause tests), bound, .execute⟩

end QueryConfig

/-! ## The parts -/

namespace Sql

theorem quoted_eq (ident : String) :
    quoted ident = (requireIdentifier ident).map fun _ => quoteIdentifier ident := by
  rw [quoted]
  cases requireIdentifier ident <;> rfl

theorem forM_cons_ok {α : Type} (check : α → Except Failure Unit) {x : α} {r : List α}
    (hx : check x = .ok ()) : (x :: r).forM check = r.forM check := by
  show (check x >>= fun _ => r.forM check) = _
  rw [hx]
  rfl

theorem forM_cons_error {α : Type} (check : α → Except Failure Unit) {x : α} {r : List α}
    {e : Failure} (hx : check x = .error e) : (x :: r).forM check = .error e := by
  show (check x >>= fun _ => r.forM check) = _
  rw [hx]
  rfl

theorem mapM_quoted (idents : List String) :
    idents.mapM quoted =
      (idents.forM requireIdentifier).map fun _ => idents.map quoteIdentifier := by
  induction idents with
  | nil => rfl
  | cons ident idents ih =>
    rw [List.mapM_cons, quoted_eq, ih]
    cases hx : requireIdentifier ident with
    | error e =>
      rw [forM_cons_error requireIdentifier hx]
      rfl
    | ok _ =>
      rw [forM_cons_ok requireIdentifier hx]
      cases idents.forM requireIdentifier <;> rfl

theorem bindPieces_eq (scope : Record) (bound : List Value) (pieces : List Template.Piece) :
    bindPieces scope bound pieces =
      (Template.placeholdersFrom bound.length pieces,
        bound ++ pieces.filterMap fun
          | .token path => some ((Template.resolve scope path).getD .null)
          | .char _ => none) := by
  induction pieces generalizing bound with
  | nil => simp [bindPieces, Template.placeholdersFrom]
  | cons piece pieces ih =>
    cases piece with
    | char c => simp [bindPieces, Template.placeholdersFrom, ih]
    | token path => simp [bindPieces, Template.placeholdersFrom, ih]

theorem filterMap_pieces (scope : Record) (s : List Char) :
    (Template.pieces s).filterMap (fun
        | .token path => some ((Template.resolve scope path).getD .null)
        | .char _ => none) = Template.bindings scope s := by
  rw [Template.bindings, Template.paths, List.map_filterMap]
  refine congrArg (List.filterMap · _) (funext fun piece => ?_)
  cases piece <;> rfl

theorem bindColumns_eq (scope : Record) (bound : List Value) (values : Record) :
    bindColumns scope bound values =
      (values.keys.forM requireIdentifier).map fun _ =>
        ((values.keys.map quoteIdentifier).zip (placeholderList bound.length values.keys.length),
          bound ++ values.map fun (_, v) => Template.bindValue scope v) := by
  induction values generalizing bound with
  | nil =>
    rw [bindColumns, List.map_nil, List.append_nil]
    rfl
  | cons member values ih =>
    obtain ⟨column, v⟩ := member
    have hkeys : Keyed.keys ((column, v) :: values) = column :: Keyed.keys values := rfl
    rw [bindColumns, quoted_eq, hkeys]
    cases hx : requireIdentifier column with
    | error e =>
      rw [forM_cons_error requireIdentifier hx]
      rfl
    | ok _ =>
      rw [forM_cons_ok requireIdentifier hx]
      simp only [ih]
      cases (Keyed.keys values).forM requireIdentifier with
      | error e => rfl
      | ok _ =>
        have hzip : ((column :: Keyed.keys values).map quoteIdentifier).zip
            (placeholderList bound.length (column :: Keyed.keys values).length) =
              (quoteIdentifier column, Template.placeholder (bound.length + 1)) ::
                ((Keyed.keys values).map quoteIdentifier).zip
                  (placeholderList (bound.length + 1) (Keyed.keys values).length) := rfl
        rw [hzip, List.length_append, List.length_singleton, List.map_cons, List.append_assoc]
        rfl

theorem bindTests_eq (scope : Record) (bound : List Value) (ps : List Predicate) :
    bindTests scope bound ps =
      (ps.forM fun p => requireIdentifier p.column).map fun _ =>
        (testTexts bound.length (ps.map fun p => ⟨p.column, p.operator⟩),
          bound ++ (ps.filter fun p => p.operator.takesValue).map fun p =>
            Template.bindValue scope p.value) := by
  induction ps generalizing bound with
  | nil =>
    rw [bindTests, List.map_nil, List.filter_nil, List.map_nil, List.append_nil]
    rfl
  | cons p ps ih =>
    rw [bindTests, quoted_eq]
    cases hx : requireIdentifier p.column with
    | error e =>
      rw [forM_cons_error (fun p : Predicate => requireIdentifier p.column) hx]
      rfl
    | ok _ =>
      rw [forM_cons_ok (fun p : Predicate => requireIdentifier p.column) hx]
      simp only [ih]
      cases ps.forM fun p => requireIdentifier p.column with
      | error e => cases p.operator.takesValue <;> rfl
      | ok _ =>
        rw [List.map_cons, testTexts, testText, List.filter_cons]
        cases p.operator.takesValue <;>
          simp [Except.map, Except.pure, Except.bind, pure, bind]

theorem whereClause_testTexts (n : Nat) (tests : List Test) :
    whereClause (testTexts n tests) = whereText n tests := by
  cases tests <;> rfl

theorem map_fst_columns (n : Nat) (columns : List String) :
    ((columns.map quoteIdentifier).zip (placeholderList n columns.length)).map Prod.fst =
      columns.map quoteIdentifier := by
  rw [List.map_fst_zip]
  simp [placeholderList]

theorem map_snd_columns (n : Nat) (columns : List String) :
    ((columns.map quoteIdentifier).zip (placeholderList n columns.length)).map Prod.snd =
      placeholderList n columns.length := by
  rw [List.map_snd_zip]
  simp [placeholderList]

theorem map_settings (columns : List String) :
    ((columns.map quoteIdentifier).zip (placeholderList 0 columns.length)).map
        (fun (column, mark) => column ++ " = ".toList ++ mark) = settings columns := by
  rw [settings, List.zip_map_left, List.map_map]
  rfl

end Sql

namespace QueryConfig

open Sql

theorem quotedTable_eq (c : QueryConfig) : c.quotedTable = c.requireTable.map quoteIdentifier := by
  rw [quotedTable, requireTable]
  cases c.table? with
  | none => rfl
  | some table =>
    simp only [quoted_eq]
    cases requireIdentifier table <;> rfl

/-- Made in one pass or from a shape, a statement is the same, and so is what refuses it. -/
theorem assemble_eq_statement (c : QueryConfig) (scope : Record) :
    c.assemble scope = c.statement scope := by
  rw [assemble, statement, shape]
  cases hop : c.operation with
  | raw =>
    cases hq : c.query.filter fun q => !Text.allBlank q.toList with
    | none => rfl
    | some query =>
      have hparams : c.parameters scope = Template.bindings scope query.toList := by
        rw [parameters, hop, Option.eq_some_of_filter_eq_some hq]
        rfl
      simp only [hparams, bindPieces_eq, filterMap_pieces]
      rfl
  | select =>
    have hparams : c.parameters scope = c.testParameters scope := by rw [parameters, hop]
    simp only [hparams, mapM_quoted, quotedTable_eq, bindTests_eq, requireTestColumns]
    cases c.columns.forM requireIdentifier with
    | error e => rfl
    | ok _ =>
      cases c.requireTable with
      | error e => rfl
      | ok table =>
        cases c.predicates.forM fun p => requireIdentifier p.column with
        | error e => rfl
        | ok _ =>
          simp only [Except.map, Except.pure, Except.bind, pure, bind, whereClause_testTexts,
            List.isEmpty_map, List.nil_append]
          rfl
  | insert =>
    have hparams : c.parameters scope = c.valueParameters scope := by rw [parameters, hop]
    simp only [hparams, quotedTable_eq, bindColumns_eq]
    cases c.requireValues "insert" with
    | error e => rfl
    | ok _ =>
      cases c.values.keys.forM requireIdentifier with
      | error e => rfl
      | ok _ =>
        cases c.requireTable with
        | error e => rfl
        | ok table =>
          simp only [Except.map, Except.pure, Except.bind, pure, bind, List.length_nil,
            map_fst_columns, map_snd_columns, List.nil_append]
          rfl
  | update =>
    have hparams : c.parameters scope = c.valueParameters scope ++ c.testParameters scope := by
      rw [parameters, hop]
    -- The tests of an update are numbered on from its columns.
    have hcount : List.length c.values = c.values.keys.length := (List.length_map _).symm
    simp only [hparams, quotedTable_eq, bindColumns_eq, bindTests_eq, requireTestColumns]
    cases c.requireValues "update" with
    | error e => rfl
    | ok _ =>
      cases c.requirePredicates "update" with
      | error e => rfl
      | ok _ =>
        cases c.values.keys.forM requireIdentifier with
        | error e => rfl
        | ok _ =>
          cases c.requireTable with
          | error e => rfl
          | ok table =>
            cases c.predicates.forM fun p => requireIdentifier p.column with
            | error e => rfl
            | ok _ =>
              simp only [Except.map, Except.pure, Except.bind, pure, bind, List.length_nil,
                map_settings, List.nil_append, whereClause_testTexts, List.length_map, hcount]
              rfl
  | delete =>
    have hparams : c.parameters scope = c.testParameters scope := by rw [parameters, hop]
    simp only [hparams, quotedTable_eq, bindTests_eq, requireTestColumns]
    cases c.requirePredicates "delete" with
    | error e => rfl
    | ok _ =>
      cases c.requireTable with
      | error e => rfl
      | ok table =>
        cases c.predicates.forM fun p => requireIdentifier p.column with
        | error e => rfl
        | ok _ =>
          simp only [Except.map, Except.pure, Except.bind, pure, bind, whereClause_testTexts,
            List.nil_append]
          rfl

end QueryConfig

end Automation
