import Automation.Proofs.Sql.Shape
import Mathlib.Data.List.Forall2
import Mathlib.Data.List.TakeWhile

/-!
# Checked configurations make statements

A database node is checked when its configuration is read, and again when its statement is made.  The
two rules are coded apart and do not read alike: the first trims what the second only looks at.  Still
the first leaves the second nothing to refuse.  Whatever stands in the data of a node, a configuration
that is read makes a statement for every scope (`statement_of_ofNode`).

The same theorem says that no update and no delete is unrestricted.  Its text ends with a WHERE clause
that has a conjunct for each predicate of the configuration, and there is at least one; these in turn
are the items of a list under `where`.
-/

namespace Automation

open Checks

namespace Text

theorem trimStart_eq_nil_iff {s : List Char} : trimStart s = [] ↔ allBlank s = true := by
  rw [trimStart, allBlank, List.dropWhile_eq_nil_iff, List.all_eq_true]

theorem allBlank_trimStart {s : List Char} : allBlank (trimStart s) = allBlank s := by
  have hparts : s.takeWhile isBlank ++ trimStart s = s := List.takeWhile_append_dropWhile
  have hblank : allBlank (s.takeWhile isBlank) = true :=
    List.all_eq_true.2 fun _ hc => List.mem_takeWhile_imp hc
  calc allBlank (trimStart s)
      = (allBlank (s.takeWhile isBlank) && allBlank (trimStart s)) := by
        rw [hblank, Bool.true_and]
    _ = allBlank s := by
        rw [allBlank, allBlank, ← List.all_append, hparts, allBlank]

theorem trim_eq_nil_iff {s : List Char} : trim s = [] ↔ allBlank s = true := by
  have hreverse : allBlank (trimStart s).reverse = allBlank (trimStart s) := List.all_reverse
  rw [trim, trimEnd, List.reverse_eq_nil_iff, ← trimStart, trimStart_eq_nil_iff, hreverse,
    allBlank_trimStart]

end Text

theorem present_ne_none_iff {s : Option String} :
    present s ≠ none ↔ s.filter (fun s => !Text.allBlank s.toList) ≠ none := by
  cases s with
  | none => simp [present]
  | some s =>
    simp only [present, Option.bind_some, List.isEmpty_iff, Text.trim_eq_nil_iff, Option.filter]
    by_cases hblank : Text.allBlank s.toList = true <;> simp [hblank]

namespace Sql

/-- What stands in a WHERE clause for a predicate: a test of a column, with a placeholder whose
parameter is the value of the predicate if the test takes one. -/
def Conjunct (scope : Record) (params : List Value) (p : Predicate) (text : List Char) : Prop :=
  isIdentifier p.column.toList = true ∧
    ∃ k, text = testText (k + 1) ⟨p.column, p.operator⟩ ∧
      (p.operator.takesValue = true → params[k]? = some (Template.bindValue scope p.value))

/-- Tests stand for their predicates if the parameters that follow those bound so far are theirs. -/
theorem forall₂_conjunct (scope : Record) (bound : List Value) {ps : List Predicate}
    (hps : ∀ p ∈ ps, isIdentifier p.column.toList = true) :
    List.Forall₂
      (Conjunct scope (bound ++ (ps.filter fun p => p.operator.takesValue).map fun p =>
        Template.bindValue scope p.value))
      ps (testTexts bound.length (ps.map fun p => ⟨p.column, p.operator⟩)) := by
  induction ps generalizing bound with
  | nil => exact .nil
  | cons p ps ih =>
    have hident := hps p (List.mem_cons_self ..)
    have hrest := fun q hq => hps q (List.mem_cons_of_mem p hq)
    rw [List.map_cons, testTexts]
    cases htakes : p.operator.takesValue with
    | false =>
      -- Without a value there is no placeholder, so any number will do.
      rw [List.filter_cons_of_neg (by simp [htakes])]
      refine .cons ⟨hident, bound.length, rfl, fun h => ?_⟩ (ih bound hrest)
      rw [htakes] at h
      cases h
    | true =>
      -- The value is bound next, and the rest of the tests are numbered from after it.
      have hbound := ih (bound ++ [Template.bindValue scope p.value]) hrest
      rw [List.length_append, List.length_singleton, List.append_assoc] at hbound
      rw [List.filter_cons_of_pos (by simp [htakes]), List.map_cons]
      refine .cons ⟨hident, bound.length, rfl, fun _ => ?_⟩ hbound
      rw [List.getElem?_append_right (Nat.le_refl _), Nat.sub_self]
      rfl

end Sql

namespace QueryConfig

open Sql

variable {c : QueryConfig}

/-! ## Shapes of checked configurations -/

theorem Named.exists_table (h : c.Named) :
    ∃ table, c.table? = some table ∧ c.requireTable = .ok table := by
  obtain ⟨table, htable, hident⟩ := h.table
  refine ⟨table, htable, ?_⟩
  simp only [requireTable, htable, requireIdentifier_eq_ok_iff.2 hident]
  rfl

theorem Named.requireTestColumns (h : c.Named) : c.requireTestColumns = .ok () :=
  forM_eq_ok_iff.2 fun p hp => requireIdentifier_eq_ok_iff.2 (h.tests p hp)

theorem requireValues_eq_ok {op : String} (h : c.values ≠ []) : c.requireValues op = .ok () :=
  if_neg (by simpa using h)

theorem requirePredicates_eq_ok {op : String} (h : c.predicates ≠ []) :
    c.requirePredicates op = .ok () :=
  if_neg (by simpa using h)

/-- A configuration that passes its check has a shape, and where rows are changed or removed this has a
test for each predicate, of which there is one at least. -/
theorem exists_shape_of_check (h : c.check = .ok ()) :
    ∃ shape, c.shape = .ok shape ∧
      match c.operation with
      | .update => c.Named ∧ c.predicates ≠ [] ∧
        ∃ table, c.table? = some table ∧ shape = .update table c.values.keys c.tests
      | .delete => c.Named ∧ c.predicates ≠ [] ∧
        ∃ table, c.table? = some table ∧ shape = .delete table c.tests
      | _ => True := by
  obtain ⟨-, h⟩ := check_eq_ok_iff.1 h
  rw [shape]
  cases hop : c.operation with
  | raw =>
    rw [hop] at h
    obtain ⟨query, hquery⟩ := Option.ne_none_iff_exists'.1 (present_ne_none_iff.1 h)
    rw [hquery]
    exact ⟨_, rfl, trivial⟩
  | select =>
    rw [hop] at h
    obtain ⟨table, -, htable⟩ := h.exists_table
    simp only [forM_requireIdentifier_eq_ok_iff.2 h.columns, htable, h.requireTestColumns]
    exact ⟨_, rfl, trivial⟩
  | insert =>
    rw [hop] at h
    obtain ⟨hnamed, hvalues⟩ := h
    obtain ⟨table, -, htable⟩ := hnamed.exists_table
    simp only [requireValues_eq_ok hvalues, forM_requireIdentifier_eq_ok_iff.2 hnamed.keys, htable]
    exact ⟨_, rfl, trivial⟩
  | update =>
    rw [hop] at h
    obtain ⟨hnamed, hvalues, hpredicates⟩ := h
    obtain ⟨table, htable?, htable⟩ := hnamed.exists_table
    simp only [requireValues_eq_ok hvalues, requirePredicates_eq_ok hpredicates,
      forM_requireIdentifier_eq_ok_iff.2 hnamed.keys, htable, hnamed.requireTestColumns]
    exact ⟨_, rfl, hnamed, hpredicates, table, htable?, rfl⟩
  | delete =>
    rw [hop] at h
    obtain ⟨hnamed, hpredicates⟩ := h
    obtain ⟨table, htable?, htable⟩ := hnamed.exists_table
    simp only [requirePredicates_eq_ok hpredicates, htable, hnamed.requireTestColumns]
    exact ⟨_, rfl, hnamed, hpredicates, table, htable?, rfl⟩

/-! ## Statements -/

/-- What an update or a delete does, in front of its WHERE clause. -/
def command (c : QueryConfig) (table : String) : List Char :=
  match c.operation with
  | .update =>
    "UPDATE ".toList ++ quoteIdentifier table ++ " SET ".toList ++ commaList (settings c.values.keys)
  | _ => "DELETE FROM ".toList ++ quoteIdentifier table

theorem sql_update (hop : c.operation = .update) (table : String) (tests : List Test) :
    (Shape.update table c.values.keys tests).sql =
      c.command table ++ whereText c.values.keys.length tests := by
  rw [command, hop]
  rfl

theorem sql_delete (hop : c.operation = .delete) (table : String) (tests : List Test) :
    (Shape.delete table tests).sql = c.command table ++ whereText 0 tests := by
  rw [command, hop]
  rfl

theorem whereText_tests (h : c.predicates ≠ []) (n : Nat) :
    whereText n c.tests =
      " WHERE ".toList ++ List.intercalate " AND ".toList (testTexts n c.tests) :=
  if_neg (by simpa [tests] using h)

theorem restricted_of_check {shape : Shape} (hcheck : c.check = .ok ()) (hshape : c.shape = .ok shape)
    (hop : c.operation = .update ∨ c.operation = .delete) (scope : Record) :
    c.predicates ≠ [] ∧ ∃ table conjuncts, c.table? = some table ∧
      shape.sql = c.command table ++ " WHERE ".toList ++ List.intercalate " AND ".toList conjuncts ∧
      List.Forall₂ (Conjunct scope (c.parameters scope)) c.predicates conjuncts := by
  obtain ⟨shape', hshape', hrest⟩ := exists_shape_of_check hcheck
  obtain rfl : shape' = shape := Except.ok.inj (hshape'.symm.trans hshape)
  rcases hop with hop | hop
  · rw [hop] at hrest
    obtain ⟨hnamed, hpredicates, table, htable, rfl⟩ := hrest
    have hcount : c.values.keys.length = (c.valueParameters scope).length := by
      rw [valueParameters, List.length_map]
      exact List.length_map _
    refine ⟨hpredicates, table, testTexts c.values.keys.length c.tests, htable, ?_, ?_⟩
    · rw [sql_update hop, whereText_tests hpredicates, List.append_assoc]
    · rw [parameters, hop, hcount]
      exact forall₂_conjunct scope (c.valueParameters scope) hnamed.tests
  · rw [hop] at hrest
    obtain ⟨hnamed, hpredicates, table, htable, rfl⟩ := hrest
    refine ⟨hpredicates, table, testTexts 0 c.tests, htable, ?_, ?_⟩
    · rw [sql_delete hop, whereText_tests hpredicates, List.append_assoc]
    · rw [parameters, hop]
      exact forall₂_conjunct scope [] hnamed.tests

/-- A database node whose configuration is read makes a statement for every scope.  If rows are updated
or deleted, the text ends with a WHERE clause with one conjunct for each predicate, and there are
predicates: the items of a list that the data has under `where`. -/
theorem statement_of_ofNode {n : Node} {triggerPrefix : String}
    (h : NodeConfig.ofNode n triggerPrefix = .ok (.query c)) (scope : Record) :
    ∃ s, c.statement scope = .ok s ∧
      (c.operation = .update ∨ c.operation = .delete →
        c.predicates ≠ [] ∧
        (∃ items, ("where", .array items) ∈ n.data ∧ items.length = c.predicates.length) ∧
        ∃ table conjuncts, c.table? = some table ∧
          s.sql.toList =
            c.command table ++ " WHERE ".toList ++ List.intercalate " AND ".toList conjuncts ∧
          List.Forall₂ (Conjunct scope s.params) c.predicates conjuncts) := by
  obtain ⟨hdecoded, hcheck⟩ := NodeConfig.of_ofNode_query h
  obtain ⟨shape, hshape, -⟩ := exists_shape_of_check hcheck
  refine ⟨⟨.ofList shape.sql, c.parameters scope, shape.kind⟩, ?_, fun hop => ?_⟩
  · rw [statement, hshape]
    rfl
  · obtain ⟨hpredicates, table, conjuncts, htable, hsql, hconjuncts⟩ :=
      restricted_of_check hcheck hshape hop scope
    exact ⟨hpredicates, exists_where_of_ofValue hdecoded hpredicates, table, conjuncts, htable,
      (String.toList_ofList ..).trans hsql, hconjuncts⟩

def renameNode : Node :=
  { Node.new "rename" "database" with
    data := [("credential_id", .string "db"), ("operation", .string "update"),
      ("table", .string " users "), ("values", .object [("name", .string "Ada")]),
      ("where", .array [.object [("column", .string "id"), ("value", .ofNat 7)],
        .object [("column", .string "deleted_at"), ("operator", .string "is_null")]])] }

def renameConfig : QueryConfig where
  credentialId := some "db"
  operation := .update
  table := some " users "
  query := none
  columns := []
  predicates := [⟨"id", .eq, .ofNat 7⟩, ⟨"deleted_at", .isNull, .null⟩]
  values := [("name", .string "Ada")]
  limit := none

theorem statement_of_ofNode_rename :
    NodeConfig.ofNode renameNode "trigger" = .ok (.query renameConfig) ∧
      ∃ s byId byPresence, renameConfig.statement [] = .ok s ∧
        s.sql.toList = renameConfig.command "users" ++ " WHERE ".toList ++
          List.intercalate " AND ".toList [byId, byPresence] ∧
        Conjunct [] s.params ⟨"id", .eq, .ofNat 7⟩ byId ∧
        Conjunct [] s.params ⟨"deleted_at", .isNull, .null⟩ byPresence := by
  have hread : NodeConfig.ofNode renameNode "trigger" = .ok (.query renameConfig) := rfl
  refine ⟨hread, ?_⟩
  obtain ⟨s, hs, hrestricted⟩ := statement_of_ofNode hread []
  obtain ⟨-, -, table, conjuncts, htable, hsql, hconjuncts⟩ := hrestricted (.inl rfl)
  have husers : renameConfig.table? = some "users" := by decide
  obtain rfl : "users" = table := Option.some.inj (husers.symm.trans htable)
  have hpredicates : renameConfig.predicates =
      [⟨"id", .eq, .ofNat 7⟩, ⟨"deleted_at", .isNull, .null⟩] := rfl
  rw [hpredicates] at hconjuncts
  obtain ⟨byId, r, hid, hr, rfl⟩ := List.forall₂_cons_left_iff.1 hconjuncts
  obtain ⟨byPresence, r', hpresence, hr', rfl⟩ := List.forall₂_cons_left_iff.1 hr
  obtain rfl := List.forall₂_nil_left_iff.1 hr'
  exact ⟨s, byId, byPresence, hs, hsql, hid, hpresence⟩

end QueryConfig

end Automation
