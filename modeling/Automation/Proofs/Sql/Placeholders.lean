import Automation.Proofs.Sql.Shape
import Automation.Proofs.Template.Tokens

/-!
# Placeholders and parameters

A database finds the placeholders of a statement in its text: a question mark and all the digits behind
it (`placeholdersIn`).  For the parameters to be bound to what they are meant for, these have to be `?1`,
`?2` and so on, with as many numbers as there are parameters, and the one with number `i` has to stand
where the `i`th value is wanted.

Nobody numbers a statement as a whole.  Settings, tests and the values of an insert each number their own
placeholders from how many stand in front of them, tests without a value none at all.  `Numbered` says
that a part of a text is right if `n` placeholders stand in front of it, and parts that are right one
after the other make up a text that is (`Numbered.append`).  All statements made of a table and columns
come out right (`placeholders_of_statement`).

So does a template of free SQL, unless a digit follows a token in it: the digit goes on the number of the
placeholder, which is then another one.
-/

namespace Automation

namespace Sql

open Template (placeholder)

/-! ## Reading placeholders -/

/-- The placeholders of a text from the left: every question mark with the digits that follow it. -/
def placeholdersIn : List Char → List (List Char)
  | [] => []
  | c :: s =>
    if c = '?' then (c :: s.takeWhile Char.isDigit) :: placeholdersIn s else placeholdersIn s

/-- What may follow a number without going on with it. -/
def EndsNumber (s : List Char) : Prop := NextIs (fun c => c.isDigit = false) s

theorem takeWhile_isDigit_eq_nil_iff {s : List Char} :
    s.takeWhile Char.isDigit = [] ↔ EndsNumber s := by
  cases s with
  | nil => exact iff_of_true rfl nextIs_nil
  | cons c s =>
    constructor
    · intro h
      refine nextIs_cons_iff.2 (Bool.eq_false_iff.2 fun hc => ?_)
      rw [List.takeWhile_cons_of_pos hc] at h
      cases h
    · intro h
      exact List.takeWhile_cons_of_neg (by rw [h c rfl]; exact Bool.false_ne_true)

theorem placeholdersIn_append {a b : List Char} (h : '?' ∉ a) :
    placeholdersIn (a ++ b) = placeholdersIn b := by
  induction a with
  | nil => rfl
  | cons c a ih =>
    rw [List.mem_cons, not_or] at h
    rw [List.cons_append, placeholdersIn, if_neg fun heq => h.1 heq.symm, ih h.2]

theorem placeholdersIn_of_not_mem {s : List Char} (h : '?' ∉ s) : placeholdersIn s = [] := by
  have happend := placeholdersIn_append (b := []) h
  rwa [List.append_nil] at happend

theorem question_not_mem_toDigits (n : Nat) : '?' ∉ Nat.toDigits 10 n := by
  intro h
  exact absurd (Nat.isDigit_of_mem_toDigits (by decide) (by decide) h) (by decide)

theorem placeholdersIn_placeholder (n : Nat) (rest : List Char) :
    placeholdersIn (placeholder n ++ rest) =
      (placeholder n ++ rest.takeWhile Char.isDigit) :: placeholdersIn rest := by
  have hdigits : ∀ c ∈ Nat.toDigits 10 n, c.isDigit = true := fun c hc =>
    Nat.isDigit_of_mem_toDigits (by decide) (by decide) hc
  rw [placeholder, List.cons_append, placeholdersIn, if_pos rfl,
    placeholdersIn_append (question_not_mem_toDigits n), List.takeWhile_append_of_pos hdigits]
  rfl

/-! ## Numbering -/

/-- A text whose placeholders have the numbers after `n`, one for each label, in their order.  In front
of each stands at least what its label asks for. -/
inductive Numbered {α : Type} (front : α → List Char) : Nat → List Char → List α → Prop where
  | plain {n : Nat} {s : List Char} : '?' ∉ s → Numbered front n s []
  | mark {n : Nat} {before rest : List Char} {l : α} {ls : List α} : '?' ∉ before →
      front l <:+ before → EndsNumber rest → Numbered front (n + 1) rest ls →
      Numbered front n (before ++ (placeholder (n + 1) ++ rest)) (l :: ls)

section

variable {α β : Type} {front : β → List Char}

theorem Numbered.placeholdersIn_eq {n : Nat} {s : List Char} {ls : List β}
    (h : Numbered front n s ls) : placeholdersIn s = placeholderList n ls.length := by
  induction h with
  | plain hs => exact placeholdersIn_of_not_mem hs
  | @mark n before rest l ls hbefore _ hrest _ ih =>
    rw [placeholdersIn_append hbefore, placeholdersIn_placeholder,
      takeWhile_isDigit_eq_nil_iff.2 hrest, List.append_nil, ih]
    rfl

theorem Numbered.behind {n : Nat} {a s : List Char} {ls : List β} (ha : '?' ∉ a)
    (h : Numbered front n s ls) : Numbered front n (a ++ s) ls := by
  cases h with
  | plain hs => exact .plain fun hmem => (List.mem_append.1 hmem).elim ha hs
  | mark hbefore hfront hrest h =>
    rw [← List.append_assoc]
    refine .mark (fun hmem => (List.mem_append.1 hmem).elim ha hbefore) ?_ hrest h
    exact hfront.trans (List.suffix_append _ _)

theorem Numbered.append {n : Nat} {s t : List Char} {ls ms : List β} (hs : Numbered front n s ls)
    (ht : Numbered front (n + ls.length) t ms) (hend : EndsNumber t) :
    Numbered front n (s ++ t) (ls ++ ms) := by
  induction hs with
  | plain hs => exact ht.behind hs
  | @mark n before rest l ls hbefore hfront hrest _ ih =>
    rw [List.length_cons, Nat.add_comm ls.length, ← Nat.add_assoc] at ht
    rw [List.append_assoc, List.append_assoc]
    exact .mark hbefore hfront (hrest.append hend) (ih ht)

theorem Numbered.append_plain {n : Nat} {s t : List Char} {ls : List β}
    (hs : Numbered front n s ls) (ht : '?' ∉ t) (hend : EndsNumber t) :
    Numbered front n (s ++ t) ls := by
  have h := hs.append (.plain ht) hend
  rwa [List.append_nil] at h

theorem Numbered.series {text : Nat → α → List Char} {count : α → Nat} {labels : α → List β}
    {sep : List Char} {items : List α} (hsep : '?' ∉ sep) (hend : ∀ s, EndsNumber (sep ++ s))
    (hcount : ∀ a ∈ items, (labels a).length = count a)
    (htext : ∀ a ∈ items, ∀ n, Numbered front n (text n a) (labels a)) (n : Nat) :
    Numbered front n (sep.intercalate (series text count n items)) (items.flatMap labels) := by
  induction items generalizing n with
  | nil => exact .plain List.not_mem_nil
  | cons a items ih =>
    obtain ⟨hcount_a, hcount⟩ := List.forall_mem_cons.1 hcount
    obtain ⟨htext_a, htext⟩ := List.forall_mem_cons.1 htext
    have hrest := ih hcount htext (n + count a)
    cases items with
    | nil =>
      rw [Sql.series, Sql.series, List.intercalate_singleton, List.flatMap_singleton]
      exact htext_a n
    | cons b items =>
      rw [Sql.series, Sql.series, List.intercalate_cons_cons, ← Sql.series, List.append_assoc,
        List.flatMap_cons]
      refine (htext_a n).append ?_ (hend _)
      rw [hcount_a]
      exact hrest.behind hsep

theorem series_map (f : α → β) (text : Nat → β → List Char) (count : β → Nat) (n : Nat)
    (items : List α) :
    series text count n (items.map f) =
      series (fun n a => text n (f a)) (fun a => count (f a)) n items := by
  induction items generalizing n with
  | nil => rfl
  | cons a items ih => exact congrArg (text n (f a) :: ·) (ih _)

end

/-! ## Parts of a statement -/

theorem endsNumber_comma (s : List Char) : EndsNumber ([',', ' '] ++ s) :=
  nextIs_cons_iff.2 (by decide)

theorem question_not_mem_quoteIdentifier {ident : String} (h : isIdentifier ident.toList = true) :
    '?' ∉ quoteIdentifier ident := by
  intro hmem
  rcases of_mem_quoteIdentifier h hmem with hname | hpoint | hquote
  · exact absurd hname (by decide)
  · exact absurd hpoint (by decide)
  · exact absurd hquote (by decide)

theorem question_not_mem_commaList {idents : List String}
    (h : ∀ ident ∈ idents, isIdentifier ident.toList = true) :
    '?' ∉ commaList (idents.map quoteIdentifier) := by
  intro hmem
  rcases Text.of_mem_intercalate hmem with hmem | ⟨item, hitem, hmem⟩
  · exact absurd hmem (by decide)
  · obtain ⟨ident, hident, rfl⟩ := List.mem_map.1 hitem
    exact question_not_mem_quoteIdentifier (h ident hident) hmem

theorem question_not_mem_operator (op : SqlOperator) : '?' ∉ op.sql.toList := by
  cases op <;> decide

/-- What stands in front of the placeholder of a column that is compared: the column in quotes and the
operator.  A setting reads like a comparison by `=`. -/
def comparison (p : Predicate) : List Char :=
  quoteIdentifier p.column ++ ' ' :: (p.operator.sql.toList ++ [' '])

theorem question_not_mem_comparison {p : Predicate} (h : isIdentifier p.column.toList = true) :
    '?' ∉ comparison p := by
  intro hmem
  rcases List.mem_append.1 hmem with hmem | hmem
  · exact question_not_mem_quoteIdentifier h hmem
  · rcases List.mem_cons.1 hmem with heq | hmem
    · exact absurd heq (by decide)
    · rcases List.mem_append.1 hmem with hmem | hmem
      · exact question_not_mem_operator p.operator hmem
      · exact absurd hmem (by decide)

theorem numbered_comparison {p : Predicate} (h : isIdentifier p.column.toList = true) (n : Nat) :
    Numbered comparison n (comparison p ++ placeholder (n + 1)) [p] := by
  have hempty : Numbered comparison (n + 1) [] [] := .plain List.not_mem_nil
  have hmark :=
    Numbered.mark (question_not_mem_comparison h) (List.suffix_refl _) nextIs_nil hempty
  rwa [List.append_nil] at hmark

theorem numbered_testText {p : Predicate} (h : isIdentifier p.column.toList = true) (n : Nat) :
    Numbered comparison n (testText (n + 1) ⟨p.column, p.operator⟩)
      (if p.operator.takesValue then [p] else []) := by
  rw [testText]
  cases htakes : p.operator.takesValue with
  | true =>
    have hcompared := numbered_comparison h n
    rw [comparison, List.append_assoc, List.cons_append, List.append_assoc] at hcompared
    exact hcompared
  | false =>
    refine .plain fun hmem => question_not_mem_comparison h ?_
    rw [if_neg (by simp), List.append_nil] at hmem
    rw [comparison, ← List.cons_append, ← List.append_assoc]
    exact List.mem_append_left _ hmem

theorem endsNumber_whereText (n : Nat) (tests : List Test) : EndsNumber (whereText n tests) := by
  cases tests with
  | nil => exact nextIs_nil
  | cons t tests => exact nextIs_cons_iff.2 (by decide)

theorem flatMap_takesValue (ps : List Predicate) :
    (ps.flatMap fun p => if p.operator.takesValue then [p] else []) =
      ps.filter fun p => p.operator.takesValue := by
  induction ps with
  | nil => rfl
  | cons p ps ih =>
    rw [List.flatMap_cons, ih]
    cases htakes : p.operator.takesValue <;> simp [htakes]

theorem numbered_whereText {ps : List Predicate}
    (h : ∀ p ∈ ps, isIdentifier p.column.toList = true) (n : Nat) :
    Numbered comparison n (whereText n (ps.map fun p => ⟨p.column, p.operator⟩))
      (ps.filter fun p => p.operator.takesValue) := by
  rw [whereText]
  split
  · next hempty =>
    rw [List.isEmpty_iff, List.map_eq_nil_iff] at hempty
    rw [hempty]
    exact .plain List.not_mem_nil
  · have hand : ∀ s, EndsNumber (" AND ".toList ++ s) := fun s =>
      nextIs_of_head (c := ' ') (by decide) (by decide)
    rw [testTexts_eq_series, series_map, ← flatMap_takesValue]
    refine Numbered.behind (by decide)
      (Numbered.series (by decide) hand (fun p _ => ?_) (fun p hp n => ?_) n)
    · rw [Test.count]
      split <;> rfl
    · exact numbered_testText (h p hp) n

/-! ## Statements -/

theorem question_not_mem_fieldText {columns : List String}
    (h : ∀ column ∈ columns, isIdentifier column.toList = true) :
    '?' ∉ Shape.fieldText columns := by
  rw [Shape.fieldText]
  split
  · decide
  · exact question_not_mem_commaList h

theorem question_not_mem_limitText (limit : Option Nat) : '?' ∉ Shape.limitText limit := by
  cases limit with
  | none => exact List.not_mem_nil
  | some n =>
    intro hmem
    rcases List.mem_append.1 hmem with hmem | hmem
    · exact absurd hmem (by decide)
    · exact question_not_mem_toDigits n hmem

theorem endsNumber_limitText (limit : Option Nat) : EndsNumber (Shape.limitText limit) := by
  cases limit with
  | none => exact nextIs_nil
  | some n => exact nextIs_cons_iff.2 (by decide)

section

variable {table : String} {ps : List Predicate}

theorem numbered_select {columns : List String} {limit : Option Nat}
    (h : (Shape.select columns table (ps.map fun p => ⟨p.column, p.operator⟩) limit).Named) :
    Numbered comparison 0
      (Shape.select columns table (ps.map fun p => ⟨p.column, p.operator⟩) limit).sql
      (ps.filter fun p => p.operator.takesValue) := by
  obtain ⟨htable, hcolumns, htests⟩ := Shape.named_select_iff.1 h
  rw [List.forall_mem_map] at htests
  rw [Shape.sql_select]
  refine Numbered.behind (by decide) (.behind (question_not_mem_fieldText hcolumns)
    (.behind (by decide) (.behind (question_not_mem_quoteIdentifier htable) ?_)))
  exact (numbered_whereText htests 0).append_plain (question_not_mem_limitText limit)
    (endsNumber_limitText limit)

theorem numbered_delete
    (h : (Shape.delete table (ps.map fun p => ⟨p.column, p.operator⟩)).Named) :
    Numbered comparison 0 (Shape.delete table (ps.map fun p => ⟨p.column, p.operator⟩)).sql
      (ps.filter fun p => p.operator.takesValue) := by
  obtain ⟨htable, htests⟩ := Shape.named_delete_iff.1 h
  rw [List.forall_mem_map] at htests
  rw [Shape.sql_delete]
  refine Numbered.behind (by decide) (.behind (question_not_mem_quoteIdentifier htable) ?_)
  exact numbered_whereText htests 0

def assignment (member : String × Value) : Predicate := ⟨member.1, .eq, member.2⟩

theorem numbered_settings {values : Record}
    (h : ∀ column ∈ values.keys, isIdentifier column.toList = true) :
    Numbered comparison 0 (commaList (settings values.keys)) (values.map assignment) := by
  rw [settings_eq_series, Keyed.keys, series_map, commaList,
    ← List.flatMap_singleton' (values.map _), List.flatMap_map]
  refine Numbered.series (by decide) endsNumber_comma ?_ ?_ 0
  · intro _ _
    rfl
  · intro member hmember n
    have hident : isIdentifier (assignment member).column.toList = true :=
      h member.1 (List.mem_map_of_mem hmember)
    have hequals : " = ".toList = ' ' :: (SqlOperator.eq.sql.toList ++ [' ']) := by decide
    have hsetting : settingText n member.1 =
        comparison (assignment member) ++ placeholder (n + 1) := by
      rw [settingText, hequals]
      rfl
    rw [hsetting]
    exact numbered_comparison hident n

theorem numbered_update {values : Record}
    (h : (Shape.update table values.keys (ps.map fun p => ⟨p.column, p.operator⟩)).Named) :
    Numbered comparison 0
      (Shape.update table values.keys (ps.map fun p => ⟨p.column, p.operator⟩)).sql
      (values.map assignment ++ ps.filter fun p => p.operator.takesValue) := by
  obtain ⟨htable, hkeys, htests⟩ := Shape.named_update_iff.1 h
  rw [List.forall_mem_map] at htests
  -- The tests go on where the settings end, and there is a setting for each column.
  have hlength : values.keys.length = 0 + (values.map assignment).length := by
    rw [Nat.zero_add, List.length_map, Keyed.keys, List.length_map]
  rw [Shape.sql_update, hlength]
  refine Numbered.behind (by decide) (.behind (question_not_mem_quoteIdentifier htable)
    (.behind (by decide) ?_))
  exact (numbered_settings hkeys).append (numbered_whereText htests _) (endsNumber_whereText _ _)

/-- The placeholders of an insert stand by themselves, so nothing is asked of what is in front. -/
theorem numbered_insert {columns : List String} (h : (Shape.insert table columns).Named) :
    Numbered (fun _ => []) 0 (Shape.insert table columns).sql columns := by
  obtain ⟨htable, hcolumns⟩ := Shape.named_insert_iff.1 h
  have hlist : Numbered (fun _ => []) 0 (commaList (placeholderList 0 columns.length))
      (columns.flatMap fun column => [column]) := by
    rw [placeholderList_eq_series, commaList]
    refine Numbered.series (by decide) endsNumber_comma ?_ ?_ 0
    · intro _ _
      rfl
    · intro column _ n
      have hempty : Numbered (fun _ : String => []) (n + 1) [] [] := .plain List.not_mem_nil
      have hmark :=
        Numbered.mark (l := column) List.not_mem_nil List.nil_suffix nextIs_nil hempty
      rwa [List.append_nil] at hmark
  rw [List.flatMap_singleton'] at hlist
  rw [Shape.sql_insert]
  refine Numbered.behind (by decide) (.behind (question_not_mem_quoteIdentifier htable)
    (.behind (by decide) (.behind (question_not_mem_commaList hcolumns) (.behind (by decide) ?_))))
  exact hlist.append_plain (by decide) (nextIs_cons_iff.2 (by decide))

end

/-! ## Templates -/

/-- A template goes on a number if its text does, since a placeholder does not. -/
theorem exists_first_outside (n : Nat) (parts : List (List Char × List Char)) (tail : List Char) :
    ∃ first more, parts.map Prod.fst ++ [tail] = first :: more ∧
      (EndsNumber (Template.Cut.fillFrom (fun i _ => placeholder i) n parts ++ tail) ↔
        EndsNumber first) := by
  cases parts with
  | nil => exact ⟨tail, [], rfl, Iff.rfl⟩
  | cons part parts =>
    obtain ⟨before, path⟩ := part
    refine ⟨before, parts.map Prod.fst ++ [tail], rfl, ?_⟩
    cases before with
    | nil => exact iff_of_true (nextIs_cons_iff.2 (by decide)) nextIs_nil
    | cons c before => exact Iff.rfl

/-- The placeholders of a filled template are numbered in a row unless a digit follows one of them. -/
theorem placeholdersIn_fillFrom_iff {parts : List (List Char × List Char)} {tail : List Char}
    (h : ∀ t ∈ parts.map Prod.fst ++ [tail], '?' ∉ t) (n : Nat) :
    placeholdersIn (Template.Cut.fillFrom (fun i _ => placeholder i) (n + 1) parts ++ tail) =
        placeholderList n parts.length ↔
      ∀ t ∈ (parts.map Prod.fst ++ [tail]).tail, EndsNumber t := by
  induction parts generalizing n with
  | nil => exact iff_of_true (placeholdersIn_of_not_mem (h tail (List.mem_singleton_self tail))) nofun
  | cons part parts ih =>
    obtain ⟨before, path⟩ := part
    obtain ⟨hbefore, hrest⟩ := List.forall_mem_cons.1 h
    obtain ⟨first, more, hfirst, hends⟩ := exists_first_outside (n + 1 + 1) parts tail
    have hlist : placeholderList n (parts.length + 1) =
        (placeholder (n + 1) ++ []) :: placeholderList (n + 1) parts.length := by
      rw [List.append_nil]
      rfl
    have hmore := ih hrest (n + 1)
    rw [Template.Cut.fillFrom, List.append_assoc, List.append_assoc, placeholdersIn_append hbefore,
      placeholdersIn_placeholder, List.length_cons, hlist, List.cons.injEq, List.append_cancel_left_eq,
      takeWhile_isDigit_eq_nil_iff, hends, hmore, List.map_cons, List.cons_append, List.tail_cons,
      hfirst, List.forall_mem_cons, List.tail_cons]

end Sql

namespace QueryConfig

open Sql

/-- The columns that values are bound for, with these, in the order of the text. -/
def boundColumns (c : QueryConfig) : List Predicate :=
  let compared := c.predicates.filter fun p => p.operator.takesValue
  match c.operation with
  | .raw => []
  | .select | .delete => compared
  | .insert => c.values.map assignment
  | .update => c.values.map assignment ++ compared

theorem parameters_eq {c : QueryConfig} (h : c.operation ≠ .raw) (scope : Record) :
    c.parameters scope = c.boundColumns.map fun p => Template.bindValue scope p.value := by
  have hvalues : c.valueParameters scope =
      (c.values.map assignment).map fun p => Template.bindValue scope p.value := by
    rw [List.map_map]
    rfl
  rw [parameters, boundColumns]
  cases hop : c.operation with
  | raw => exact absurd hop h
  | select => rfl
  | insert => exact hvalues
  | update =>
    rw [List.map_append, ← hvalues]
    rfl
  | delete => rfl

theorem length_boundColumns_insert {c : QueryConfig} (h : c.operation = .insert) :
    c.boundColumns.length = c.values.keys.length := by
  rw [boundColumns, h, Keyed.keys, List.length_map, List.length_map]

theorem quoted_boundColumns_insert {c : QueryConfig} (h : c.operation = .insert) :
    c.boundColumns.map (fun p => quoteIdentifier p.column) = c.values.keys.map quoteIdentifier := by
  rw [boundColumns, h, Keyed.keys, List.map_map, List.map_map]
  rfl

/-- The settings and tests of a statement are numbered as their values are listed. -/
theorem numbered_of_shape {c : QueryConfig} {shape : Shape} (h : c.shape = .ok shape)
    (hraw : c.operation ≠ .raw) (hinsert : c.operation ≠ .insert) :
    Numbered comparison 0 shape.sql c.boundColumns := by
  obtain ⟨hnamed, hshape⟩ := exists_of_shape h
  rw [boundColumns]
  cases hop : c.operation with
  | raw => exact absurd hop hraw
  | insert => exact absurd hop hinsert
  | select =>
    rw [hop] at hshape
    obtain ⟨table, -, rfl⟩ := hshape
    exact numbered_select hnamed
  | update =>
    rw [hop] at hshape
    obtain ⟨table, -, rfl⟩ := hshape
    exact numbered_update hnamed
  | delete =>
    rw [hop] at hshape
    obtain ⟨table, -, rfl⟩ := hshape
    exact numbered_delete hnamed

/-- Placeholders and parameters go together.  A statement made of a table and columns has the
placeholders `?1`, `?2` and so on, one for each parameter.  They stand behind the columns that their
values are for, or in the order of these in an insert.  A template has one for each of its tokens, and no
others if it has no question marks of its own; they are read as they were numbered exactly if no digit
follows a token. -/
theorem placeholders_of_statement {c : QueryConfig} {scope : Record} {s : Statement}
    (h : c.statement scope = .ok s) :
    match c.operation with
    | .raw => ∃ query cut, c.query = some query ∧ Template.Cuts query.toList cut ∧
        s.sql.toList = cut.fill (fun i _ => Template.placeholder i) ∧
        s.params = cut.paths.map (fun path => (Template.resolve scope path).getD .null) ∧
        ((∀ t ∈ cut.outside, '?' ∉ t) →
          (placeholdersIn s.sql.toList = (List.range' 1 s.params.length).map Template.placeholder ↔
            ∀ t ∈ cut.outside.tail, EndsNumber t))
    | .insert => ∃ table, c.table? = some table ∧
        placeholdersIn s.sql.toList = (List.range' 1 s.params.length).map Template.placeholder ∧
        s.params = c.boundColumns.map (fun p => Template.bindValue scope p.value) ∧
        s.sql.toList = "INSERT INTO ".toList ++ (quoteIdentifier table ++ (" (".toList ++
          (commaList (c.boundColumns.map fun p => quoteIdentifier p.column) ++ (") VALUES (".toList ++
            (commaList ((List.range' 1 s.params.length).map Template.placeholder) ++
              ") RETURNING *".toList)))))
    | _ => placeholdersIn s.sql.toList = (List.range' 1 s.params.length).map Template.placeholder ∧
        s.params = c.boundColumns.map (fun p => Template.bindValue scope p.value) ∧
        Numbered comparison 0 s.sql.toList c.boundColumns := by
  obtain ⟨shape, hshape, hsql, hparams⟩ := exists_of_statement h
  have hnumbered (hraw : c.operation ≠ .raw) (hinsert : c.operation ≠ .insert) :
      placeholdersIn s.sql.toList = placeholderList 0 s.params.length ∧
        s.params = c.boundColumns.map (fun p => Template.bindValue scope p.value) ∧
        Numbered comparison 0 s.sql.toList c.boundColumns := by
    have hnum := numbered_of_shape hshape hraw hinsert
    have hvalues := hparams.trans (parameters_eq hraw scope)
    rw [hsql, hvalues, List.length_map]
    exact ⟨hnum.placeholdersIn_eq, rfl, hnum⟩
  obtain ⟨hnamed, hshape⟩ := exists_of_shape hshape
  cases hop : c.operation with
  | raw =>
    rw [hop] at hshape
    obtain ⟨query, hquery, rfl⟩ := hshape
    have hvalues : s.params = (Template.Cut.ofPieces (Template.pieces query.toList)).paths.map
        fun path => (Template.resolve scope path).getD .null := by
      rw [hparams, parameters, hop, hquery, ← Template.paths_eq]
      rfl
    refine ⟨query, _, hquery, Template.cuts_ofPieces query.toList, ?_, hvalues, fun houtside => ?_⟩
    · exact hsql.trans (Template.placeholdersFrom_eq 0 _)
    · rw [hvalues, List.length_map, Template.Cut.paths, List.length_map, hsql]
      show placeholdersIn (Template.placeholdersFrom 0 _) = _ ↔ _
      rw [Template.placeholdersFrom_eq]
      exact placeholdersIn_fillFrom_iff houtside 0
  | select =>
    rw [hop] at hnumbered
    exact hnumbered nofun nofun
  | insert =>
    rw [hop] at hshape
    obtain ⟨table, htable, rfl⟩ := hshape
    have hvalues := hparams.trans (parameters_eq (by rw [hop]; exact nofun) scope)
    have hlength : s.params.length = c.values.keys.length := by
      rw [hvalues, List.length_map, length_boundColumns_insert hop]
    refine ⟨table, htable, ?_, hvalues, ?_⟩
    · rw [hsql, hlength]
      exact (numbered_insert hnamed).placeholdersIn_eq
    · rw [hsql, hlength, quoted_boundColumns_insert hop]
      exact Shape.sql_insert
  | update =>
    rw [hop] at hnumbered
    exact hnumbered nofun nofun
  | delete =>
    rw [hop] at hnumbered
    exact hnumbered nofun nofun

/-- Two columns are set and three are tested, the second of them for null. -/
def renewal : QueryConfig where
  credentialId := some "db"
  operation := .update
  table := some " main.users "
  query := none
  columns := []
  predicates := [⟨"id", .eq, .string "\x7b\x7bid\x7d\x7d"⟩, ⟨"left_at", .isNull, .null⟩,
    ⟨"age", .gte, .ofNat 18⟩]
  values := [("name", .string "Ada?"), ("note", .string "for \x7b\x7bid\x7d\x7d")]
  limit := none

theorem placeholders_of_statement_renewal :
    ∃ s, renewal.statement [("id", .ofNat 7)] = .ok s ∧
      placeholdersIn s.sql.toList = ["?1".toList, "?2".toList, "?3".toList, "?4".toList] ∧
      s.params = renewal.boundColumns.map (fun p =>
        Template.bindValue [("id", .ofNat 7)] p.value) ∧
      Numbered comparison 0 s.sql.toList renewal.boundColumns := by
  have hshape : renewal.shape = .ok (.update "main.users" ["name", "note"]
      [⟨"id", .eq⟩, ⟨"left_at", .isNull⟩, ⟨"age", .gte⟩]) := rfl
  have hs : renewal.statement [("id", .ofNat 7)] = .ok _ := congrArg (Except.map _) hshape
  obtain ⟨hplaceholders, hparams, hnumbered⟩ := placeholders_of_statement hs
  refine ⟨_, hs, ?_, hparams, hnumbered⟩
  rw [hplaceholders, hparams]
  decide

/-- A template in which a digit follows a token. -/
def adjoining : QueryConfig where
  credentialId := some "db"
  operation := .raw
  table := none
  query := some "SELECT \x7b\x7ba\x7d\x7d5"
  columns := []
  predicates := []
  values := []
  limit := none

/-- The digit goes on the number: the statement has one parameter, and asks for the fifteenth. -/
theorem placeholders_adjoining :
    ∃ s cut, adjoining.statement [("a", .ofNat 1)] = .ok s ∧
      Template.Cuts "SELECT \x7b\x7ba\x7d\x7d5".toList cut ∧ (∀ t ∈ cut.outside, '?' ∉ t) ∧
      s.params.length = 1 ∧ placeholdersIn s.sql.toList = ["?15".toList] ∧
      placeholdersIn s.sql.toList ≠ (List.range' 1 s.params.length).map Template.placeholder := by
  have hs : adjoining.statement [("a", .ofNat 1)] = .ok _ := rfl
  refine ⟨_, _, hs, Template.cuts_ofPieces _, by decide, rfl, ?_, ?_⟩
  · rw [String.toList_ofList]
    decide
  · rw [String.toList_ofList]
    decide

end QueryConfig

end Automation
