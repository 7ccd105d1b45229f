import Automation.Node.Config
import Automation.Proofs.Json.Slots

/-!
# What the reading of a configuration tells

The data of a node is decoded, and what was decoded is checked, one rule after the other.
`read_eq_ok_iff` says that a configuration is read exactly if both succeed, and `readFrom_of_ofNode` what
this comes to for each type of node.  A node whose configuration cannot be read is always a matter of
configuration (`exists_of_ofNode_error`).

`QueryConfig.check_eq_ok_iff` puts the rules for database nodes side by side: each operation asks for
what its statement needs, and all but free SQL for identifiers wherever there is a name.  Predicates
have a decoder of their own, which takes more than lists; still there are none but those of a list
under `where` (`QueryConfig.exists_where_of_ofValue`).
-/

namespace Automation

open Checks Json

/-! ## Reading -/

namespace NodeConfig

variable {α : Type} {n : Node} {d : Decoder α} {check : α → Except Complaint Unit}
  {triggerPrefix : String}

/-- A configuration is read if it is decoded from the data and passes its check. -/
theorem read_eq_ok_iff {c : α} :
    read n d check = .ok c ↔ d.ofValue (.object n.data) = .ok c ∧ check c = .ok () := by
  simp only [read, bind_eq_ok_iff, mapError_eq_ok_iff]
  constructor
  · rintro ⟨c', hd, _, hcheck, hc⟩
    obtain rfl : c' = c := Except.ok.inj hc
    exact ⟨hd, hcheck⟩
  · rintro ⟨hd, hcheck⟩
    exact ⟨c, hd, (), hcheck, rfl⟩

/-- What a configuration has gone through: it was decoded from the data of its node, and checked. -/
def ReadFrom (n : Node) : NodeConfig → Prop
  | .agent c => AgentConfig.decoder.ofValue (.object n.data) = .ok c ∧ c.check = .ok ()
  | .request c => RequestConfig.decoder.ofValue (.object n.data) = .ok c ∧ c.check = .ok ()
  | .query c => QueryConfig.decoder.ofValue (.object n.data) = .ok c ∧ c.check = .ok ()
  | .branch c => BranchConfig.decoder.ofValue (.object n.data) = .ok c ∧ c.check = .ok ()
  | .delay c => DelayConfig.decoder.ofValue (.object n.data) = .ok c ∧ c.check = .ok ()
  | .message c => MessageConfig.decoder.ofValue (.object n.data) = .ok c
  | .assignment c => AssignmentConfig.decoder.ofValue (.object n.data) = .ok c
  | .trigger | .unknown _ => True

theorem readFrom_of_ofNode {c : NodeConfig} (h : ofNode n triggerPrefix = .ok c) : c.ReadFrom n := by
  unfold ofNode at h
  split at h
  · cases h
    trivial
  · split at h
    case h_8 =>
      cases h
      trivial
    case h_6 | h_7 =>
      obtain ⟨b, hb, rfl⟩ := map_eq_ok_iff.1 h
      exact (read_eq_ok_iff.1 hb).1
    all_goals
      obtain ⟨b, hb, rfl⟩ := map_eq_ok_iff.1 h
      exact read_eq_ok_iff.1 hb

theorem of_ofNode_query {c : QueryConfig} (h : ofNode n triggerPrefix = .ok (.query c)) :
    QueryConfig.decoder.ofValue (.object n.data) = .ok c ∧ c.check = .ok () :=
  readFrom_of_ofNode h

theorem exists_of_map_read_error {make : α → NodeConfig} {e : Failure}
    (he : make <$> read n d check = .error e) : ∃ m, e = .configuration m := by
  rw [map_eq_error_iff, read] at he
  rcases bind_eq_error_iff.1 he with hdecode | ⟨c, -, he⟩
  · obtain ⟨_, -, rfl⟩ := mapError_eq_error_iff.1 hdecode
    exact ⟨_, rfl⟩
  · rcases bind_eq_error_iff.1 he with hcheck | ⟨_, -, hpure⟩
    · obtain ⟨_, -, rfl⟩ := mapError_eq_error_iff.1 hcheck
      exact ⟨_, rfl⟩
    · cases hpure

theorem exists_of_ofNode_error {e : Failure} (he : ofNode n triggerPrefix = .error e) :
    ∃ m, e = .configuration m := by
  unfold ofNode at he
  split at he
  · cases he
  · split at he
    all_goals first
      | exact exists_of_map_read_error he
      | cases he

end NodeConfig

/-! ## Database nodes -/

theorem checkIdentifier_eq_ok_iff {ident : String} :
    checkIdentifier ident = .ok () ↔ isIdentifier ident.toList = true := by
  unfold checkIdentifier
  cases isIdentifier ident.toList <;> simp

namespace Predicate

/-- Predicates are decoded from a list, or there are none. -/
theorem of_listDecoder {r : Reading} {t : Tree} {ps : List Predicate}
    (h : listDecoder r t = .ok ps) :
    ps = [] ∨ ∃ w, Decoder.any r t = .ok w ∧ (Decoder.list decoder).ofValue w = .ok ps := by
  rw [listDecoder, Decoder.refine, bind_eq_ok_iff] at h
  obtain ⟨w, hw, h⟩ := h
  have hread := mapError_eq_ok_iff.1 h
  split at hread
  · cases hread
    exact .inl rfl
  · split at hread
    · cases hread
      exact .inl rfl
    · cases hread
  · exact .inr ⟨w, hw, mapError_eq_ok_iff.1 hread⟩

theorem exists_array_of_listDecoder {r : Reading} {v : Value} {ps : List Predicate}
    (h : listDecoder r (.ofValue v) = .ok ps) (hps : ps ≠ []) :
    ∃ items, v = .array items ∧ items.length = ps.length := by
  obtain ⟨w, hw, hlist⟩ := (of_listDecoder h).resolve_left hps
  obtain ⟨xs, rfl, hxs⟩ := Decoder.exists_array_of_list hlist
  obtain ⟨items, hv, hitems⟩ := Decoder.exists_array_of_any hw
  exact ⟨items, hv, hitems.trans hxs⟩

end Predicate

namespace QueryConfig

variable {c : QueryConfig}

/-- The predicates of a database node come from a list under `where`, one from each item. -/
theorem exists_where_of_ofValue {data : Record}
    (h : decoder.ofValue (.object data) = .ok c) (hc : c.predicates ≠ []) :
    ∃ items, ("where", .array items) ∈ data ∧ items.length = c.predicates.length := by
  have hslot : layout.Slot "where" Predicate.listDecoder (some []) (fun s => s.2.2.2.2.2.1)
      fun values => values.2.2.2.2.2.1 :=
    Layout.slot_there (by decide) (Layout.slot_there (by decide) (Layout.slot_there (by decide)
      (Layout.slot_there (by decide) (Layout.slot_there (by decide) Layout.slot_here))))
  obtain ⟨values, rfl, hdefault | ⟨v, hv, hpredicates⟩⟩ := hslot.exists_of_ofValue h
  · exact absurd (Option.some.inj hdefault).symm hc
  · obtain ⟨items, rfl, hitems⟩ := Predicate.exists_array_of_listDecoder hpredicates hc
    exact ⟨items, hv, hitems⟩

/-- Wherever a configuration names a table or a column, it is an identifier. -/
structure Named (c : QueryConfig) : Prop where
  table : ∃ table, c.table? = some table ∧ isIdentifier table.toList = true
  columns : ∀ column ∈ c.columns, isIdentifier column.toList = true
  keys : ∀ column ∈ c.values.keys, isIdentifier column.toList = true
  tests : ∀ p ∈ c.predicates, isIdentifier p.column.toList = true

theorem checkNames_eq_ok_iff {rest : Except Complaint Unit} :
    (match c.table? with
      | none => Except.error "table required"
      | some table => do
        checkIdentifier table
        c.columns.forM checkIdentifier
        c.values.keys.forM checkIdentifier
        c.predicates.forM fun p => checkIdentifier p.column
        rest) = .ok () ↔ c.Named ∧ rest = .ok () := by
  constructor
  · intro h
    cases htable : c.table? with
    | none => simp [htable] at h
    | some table =>
      simp only [htable, check_bind_eq_ok_iff, forM_eq_ok_iff, checkIdentifier_eq_ok_iff] at h
      obtain ⟨ht, hcolumns, hkeys, htests, hrest⟩ := h
      exact ⟨⟨⟨table, htable, ht⟩, hcolumns, hkeys, htests⟩, hrest⟩
  · rintro ⟨⟨⟨table, htable, ht⟩, hcolumns, hkeys, htests⟩, hrest⟩
    simp only [htable, check_bind_eq_ok_iff, forM_eq_ok_iff, checkIdentifier_eq_ok_iff]
    exact ⟨ht, hcolumns, hkeys, htests, hrest⟩

theorem check_eq_ok_iff :
    c.check = .ok () ↔ c.credential? ≠ none ∧
      match c.operation with
      | .raw => present c.query ≠ none
      | .select => c.Named
      | .insert => c.Named ∧ c.values ≠ []
      | .update => c.Named ∧ c.values ≠ [] ∧ c.predicates ≠ []
      | .delete => c.Named ∧ c.predicates ≠ [] := by
  rw [check]
  cases hcredential : c.credential? with
  | none => simp [bind, Except.bind]
  | some id =>
    simp only [Option.isNone_some, Bool.false_eq_true, if_false, ne_eq, reduceCtorEq,
      not_false_eq_true, true_and]
    cases hop : c.operation with
    | raw =>
      cases present c.query <;> simp [pure, Except.pure]
    | select =>
      exact checkNames_eq_ok_iff.trans (and_iff_left rfl)
    | insert =>
      refine checkNames_eq_ok_iff.trans (and_congr_right fun _ => ?_)
      cases c.values <;> simp [pure, Except.pure]
    | update =>
      refine checkNames_eq_ok_iff.trans (and_congr_right fun _ => ?_)
      cases c.values <;> cases c.predicates <;> simp [pure, Except.pure]
    | delete =>
      refine checkNames_eq_ok_iff.trans (and_congr_right fun _ => ?_)
      cases c.predicates <;> simp [pure, Except.pure]

end QueryConfig

end Automation
