import Automation.Proofs.Checks
import Automation.Proofs.Node.Config
import Automation.Proofs.Text.Split
import Automation.Sql.Statement

/-!
# Shapes and their parts

What a shape is made of when there is one: a configuration that makes a statement has a table, and every
name in the text is an identifier (`exists_of_shape`).  So quoting a name puts nothing into the text but
letters, digits, underscores, points and quotes (`of_mem_quoteIdentifier`).

The lists in a statement are series.  The text of an item may depend on how many placeholders stand in
front of it, and each item adds some of its own.  Columns, settings, tests and the placeholders of an
insert are the four series there are.
-/

namespace Automation

open Checks

namespace Sql

/-! ## Identifiers -/

theorem isName_of_mem_split {s name : List Char} (h : isIdentifier s = true)
    (hname : name ∈ Text.split '.' s) : isName name = true := by
  rw [isIdentifier, Bool.and_eq_true, List.all_eq_true] at h
  exact h.2 name hname

theorem isNameChar_of_mem {name : List Char} (h : isName name = true) {c : Char} (hc : c ∈ name) :
    isNameChar c = true := by
  cases name with
  | nil => cases hc
  | cons d s =>
    rw [isName, Bool.and_eq_true, List.all_eq_true] at h
    rcases List.mem_cons.1 hc with rfl | hc
    · have hstart := h.1
      rw [isNameStart, Bool.or_eq_true] at hstart
      rw [isNameChar, Char.isAlphanum, Bool.or_eq_true, Bool.or_eq_true]
      exact hstart.imp_left Or.inl
    · exact h.2 c hc

theorem of_mem_quoteIdentifier {ident : String} (h : isIdentifier ident.toList = true) {c : Char}
    (hc : c ∈ quoteIdentifier ident) : isNameChar c = true ∨ c = '.' ∨ c = '"' := by
  rcases Text.of_mem_intercalate hc with hc | ⟨item, hitem, hc⟩
  · exact .inr (.inl (List.mem_singleton.1 hc))
  · obtain ⟨name, hname, rfl⟩ := List.mem_map.1 hitem
    rcases List.mem_cons.1 hc with rfl | hc
    · exact .inr (.inr rfl)
    · rcases List.mem_append.1 hc with hc | hc
      · exact .inl (isNameChar_of_mem (isName_of_mem_split h hname) hc)
      · exact .inr (.inr (List.mem_singleton.1 hc))

theorem requireIdentifier_eq_ok_iff {ident : String} :
    requireIdentifier ident = .ok () ↔ isIdentifier ident.toList = true := by
  rw [requireIdentifier, mapError_eq_ok_iff, checkIdentifier_eq_ok_iff]

theorem forM_requireIdentifier_eq_ok_iff {idents : List String} :
    idents.forM requireIdentifier = .ok () ↔ ∀ ident ∈ idents, isIdentifier ident.toList = true := by
  simp only [forM_eq_ok_iff, requireIdentifier_eq_ok_iff]

/-! ## Names in a statement -/

namespace Shape

def operation : Shape → Operation
  | raw _ => .raw
  | select .. => .select
  | insert .. => .insert
  | update .. => .update
  | delete .. => .delete

def idents : Shape → List String
  | raw _ => []
  | select columns table tests _ => table :: (columns ++ tests.map Test.column)
  | insert table columns => table :: columns
  | update table columns tests => table :: (columns ++ tests.map Test.column)
  | delete table tests => table :: tests.map Test.column

/-- Every name in the statement is an identifier. -/
def Named (s : Shape) : Prop := ∀ ident ∈ s.idents, isIdentifier ident.toList = true

section

variable {table : String} {columns : List String} {tests : List Test} {limit : Option Nat}

theorem named_select_iff : (select columns table tests limit).Named ↔
    isIdentifier table.toList = true ∧ (∀ column ∈ columns, isIdentifier column.toList = true) ∧
      ∀ t ∈ tests, isIdentifier t.column.toList = true := by
  rw [Named, idents, List.forall_mem_cons, List.forall_mem_append, List.forall_mem_map]

theorem named_insert_iff : (insert table columns).Named ↔
    isIdentifier table.toList = true ∧ ∀ column ∈ columns, isIdentifier column.toList = true := by
  rw [Named, idents, List.forall_mem_cons]

theorem named_update_iff : (update table columns tests).Named ↔
    isIdentifier table.toList = true ∧ (∀ column ∈ columns, isIdentifier column.toList = true) ∧
      ∀ t ∈ tests, isIdentifier t.column.toList = true := by
  rw [Named, idents, List.forall_mem_cons, List.forall_mem_append, List.forall_mem_map]

theorem named_delete_iff : (delete table tests).Named ↔
    isIdentifier table.toList = true ∧ ∀ t ∈ tests, isIdentifier t.column.toList = true := by
  rw [Named, idents, List.forall_mem_cons, List.forall_mem_map]

def limitText : Option Nat → List Char
  | some n => " LIMIT ".toList ++ Nat.toDigits 10 n
  | none => []

def fieldText (columns : List String) : List Char :=
  if columns.isEmpty then ['*'] else commaList (columns.map quoteIdentifier)

theorem sql_select : (select columns table tests limit).sql =
    "SELECT ".toList ++ (fieldText columns ++ (" FROM ".toList ++ (quoteIdentifier table ++
      (whereText 0 tests ++ limitText limit)))) := by
  rw [← List.append_assoc, ← List.append_assoc, ← List.append_assoc, ← List.append_assoc]
  cases limit <;> rfl

theorem sql_insert : (insert table columns).sql =
    "INSERT INTO ".toList ++ (quoteIdentifier table ++ (" (".toList ++
      (commaList (columns.map quoteIdentifier) ++ (") VALUES (".toList ++
        (commaList (placeholderList 0 columns.length) ++ ") RETURNING *".toList))))) := by
  rw [← List.append_assoc, ← List.append_assoc, ← List.append_assoc, ← List.append_assoc,
    ← List.append_assoc]
  rfl

theorem sql_update : (update table columns tests).sql =
    "UPDATE ".toList ++ (quoteIdentifier table ++ (" SET ".toList ++
      (commaList (settings columns) ++ whereText columns.length tests))) := by
  rw [← List.append_assoc, ← List.append_assoc, ← List.append_assoc]
  rfl

theorem sql_delete : (delete table tests).sql =
    "DELETE FROM ".toList ++ (quoteIdentifier table ++ whereText 0 tests) := by
  rw [← List.append_assoc]
  rfl

end

end Shape

end Sql

namespace QueryConfig

open Sql

variable {c : QueryConfig}

theorem requireTable_eq_ok_iff {table : String} :
    c.requireTable = .ok table ↔ c.table? = some table ∧ isIdentifier table.toList = true := by
  rw [requireTable]
  cases htable : c.table? with
  | none => simp
  | some t =>
    simp only [check_bind_eq_ok_iff, requireIdentifier_eq_ok_iff, Option.some.injEq]
    constructor
    · rintro ⟨hident, heq⟩
      obtain rfl : t = table := Except.ok.inj heq
      exact ⟨rfl, hident⟩
    · rintro ⟨rfl, hident⟩
      exact ⟨hident, rfl⟩

theorem requireTestColumns_eq_ok_iff :
    c.requireTestColumns = .ok () ↔
      ∀ t ∈ c.tests, isIdentifier t.column.toList = true := by
  rw [requireTestColumns, forM_eq_ok_iff, tests, List.forall_mem_map]
  simp only [requireIdentifier_eq_ok_iff]

theorem exists_of_shape {shape : Shape} (h : c.shape = .ok shape) :
    shape.Named ∧
      match c.operation with
      | .raw => ∃ query, c.query = some query ∧ shape = .raw query
      | .select => ∃ table, c.table? = some table ∧
        shape = .select c.columns table c.tests (c.limit.filter (0 < ·))
      | .insert => ∃ table, c.table? = some table ∧ shape = .insert table c.values.keys
      | .update => ∃ table, c.table? = some table ∧ shape = .update table c.values.keys c.tests
      | .delete => ∃ table, c.table? = some table ∧ shape = .delete table c.tests := by
  rw [QueryConfig.shape] at h
  cases hop : c.operation with
  | raw =>
    rw [hop] at h
    cases hquery : c.query.filter fun q => !Text.allBlank q.toList with
    | none => simp [hquery] at h
    | some query =>
      simp only [hquery] at h
      obtain rfl : Shape.raw query = shape := Except.ok.inj h
      exact ⟨nofun, query, Option.eq_some_of_filter_eq_some hquery, rfl⟩
  | select =>
    rw [hop] at h
    obtain ⟨hcolumns, h⟩ := check_bind_eq_ok_iff.1 h
    obtain ⟨table, htable, h⟩ := bind_eq_ok_iff.1 h
    obtain ⟨htests, h⟩ := check_bind_eq_ok_iff.1 h
    obtain rfl := Except.ok.inj h
    obtain ⟨htable, hident⟩ := requireTable_eq_ok_iff.1 htable
    refine ⟨Shape.named_select_iff.2 ⟨hident, ?_, ?_⟩, table, htable, rfl⟩
    · exact forM_requireIdentifier_eq_ok_iff.1 hcolumns
    · exact requireTestColumns_eq_ok_iff.1 htests
  | insert =>
    rw [hop] at h
    obtain ⟨-, h⟩ := check_bind_eq_ok_iff.1 h
    obtain ⟨hkeys, h⟩ := check_bind_eq_ok_iff.1 h
    obtain ⟨table, htable, h⟩ := bind_eq_ok_iff.1 h
    obtain rfl := Except.ok.inj h
    obtain ⟨htable, hident⟩ := requireTable_eq_ok_iff.1 htable
    refine ⟨Shape.named_insert_iff.2 ⟨hident, ?_⟩, table, htable, rfl⟩
    exact forM_requireIdentifier_eq_ok_iff.1 hkeys
  | update =>
    rw [hop] at h
    obtain ⟨-, h⟩ := check_bind_eq_ok_iff.1 h
    obtain ⟨-, h⟩ := check_bind_eq_ok_iff.1 h
    obtain ⟨hkeys, h⟩ := check_bind_eq_ok_iff.1 h
    obtain ⟨table, htable, h⟩ := bind_eq_ok_iff.1 h
    obtain ⟨htests, h⟩ := check_bind_eq_ok_iff.1 h
    obtain rfl := Except.ok.inj h
    obtain ⟨htable, hident⟩ := requireTable_eq_ok_iff.1 htable
    refine ⟨Shape.named_update_iff.2 ⟨hident, ?_, ?_⟩, table, htable, rfl⟩
    · exact forM_requireIdentifier_eq_ok_iff.1 hkeys
    · exact requireTestColumns_eq_ok_iff.1 htests
  | delete =>
    rw [hop] at h
    obtain ⟨-, h⟩ := check_bind_eq_ok_iff.1 h
    obtain ⟨table, htable, h⟩ := bind_eq_ok_iff.1 h
    obtain ⟨htests, h⟩ := check_bind_eq_ok_iff.1 h
    obtain rfl := Except.ok.inj h
    obtain ⟨htable, hident⟩ := requireTable_eq_ok_iff.1 htable
    refine ⟨Shape.named_delete_iff.2 ⟨hident, ?_⟩, table, htable, rfl⟩
    exact requireTestColumns_eq_ok_iff.1 htests

theorem operation_of_shape {shape : Shape} (h : c.shape = .ok shape) :
    shape.operation = c.operation := by
  obtain ⟨-, hshape⟩ := exists_of_shape h
  cases hop : c.operation with
  | raw =>
    rw [hop] at hshape
    obtain ⟨query, -, rfl⟩ := hshape
    rfl
  | _ =>
    rw [hop] at hshape
    obtain ⟨table, -, rfl⟩ := hshape
    rfl

theorem exists_of_statement {scope : Record} {s : Statement} (h : c.statement scope = .ok s) :
    ∃ shape, c.shape = .ok shape ∧ s.sql.toList = shape.sql ∧ s.params = c.parameters scope := by
  obtain ⟨shape, hshape, rfl⟩ := map_eq_ok_iff.1 h
  exact ⟨shape, hshape, String.toList_ofList .., rfl⟩

end QueryConfig

/-! ## What comes next -/

namespace Sql

/-- Nothing comes next, or a character of a kind. -/
def NextIs (p : Char → Prop) (s : List Char) : Prop := ∀ c ∈ s.head?, p c

section

variable {p q : Char → Prop} {c : Char} {s t : List Char}

theorem nextIs_nil : NextIs p [] := nofun

theorem nextIs_cons_iff : NextIs p (c :: s) ↔ p c := by
  constructor
  · intro h
    exact h c rfl
  · intro hc d hd
    obtain rfl : c = d := Option.some.inj hd
    exact hc

theorem nextIs_of_head (hs : s.head? = some c) (h : p c) : NextIs p (s ++ t) := by
  obtain ⟨s, rfl⟩ := List.head?_eq_some_iff.1 hs
  exact nextIs_cons_iff.2 h

theorem NextIs.append (hs : NextIs p s) (ht : NextIs p t) : NextIs p (s ++ t) := by
  cases s with
  | nil => exact ht
  | cons c s => exact hs

theorem NextIs.mono (hs : NextIs p s) (h : ∀ c, p c → q c) : NextIs q s := fun c hc => h c (hs c hc)

end

end Sql

/-! ## Series -/

namespace Sql

section

variable {α : Type} (text : Nat → α → List Char) (count : α → Nat)

/-- The texts of items, each behind as many placeholders as there are in front of it. -/
def series : (n : Nat) → List α → List (List Char)
  | _, [] => []
  | n, a :: r => text n a :: series (n + count a) r

end

def Test.count (t : Test) : Nat := if t.operator.takesValue then 1 else 0

def settingText (n : Nat) (column : String) : List Char :=
  quoteIdentifier column ++ " = ".toList ++ Template.placeholder (n + 1)

theorem testTexts_eq_series (n : Nat) (tests : List Test) :
    testTexts n tests = series (fun n => testText (n + 1)) Test.count n tests := by
  induction tests generalizing n with
  | nil => rfl
  | cons t tests ih =>
    rw [testTexts, series, ih, Test.count]
    split <;> rfl

theorem map_eq_series {α : Type} (text : α → List Char) (n : Nat) (items : List α) :
    items.map text = series (fun _ => text) (fun _ => 0) n items := by
  induction items with
  | nil => rfl
  | cons a items ih => rw [List.map_cons, series, Nat.add_zero, ← ih]

theorem settings_eq_series (columns : List String) :
    settings columns = series settingText (fun _ => 1) 0 columns := by
  rw [settings]
  generalize 0 = n
  induction columns generalizing n with
  | nil => rfl
  | cons column columns ih => exact congrArg (settingText n column :: ·) (ih (n + 1))

theorem placeholderList_eq_series {α : Type} (n : Nat) (items : List α) :
    placeholderList n items.length =
      series (fun n _ => Template.placeholder (n + 1)) (fun _ => 1) n items := by
  induction items generalizing n with
  | nil => rfl
  | cons item items ih => exact congrArg (Template.placeholder (n + 1) :: ·) (ih (n + 1))

end Sql

end Automation
