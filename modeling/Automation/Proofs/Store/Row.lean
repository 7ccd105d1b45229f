import Automation.Proofs.Flow.RoundTrip
import Automation.Proofs.Instant.Column
import Automation.Store.Row

/-!
# A row is the flow that was written

`Flow.flow_row` says that the row of a flow is read as the flow, if each of its columns can be read
back: the lists, which are JSON, and the moments.  The moments matter to nothing else; where only the
lists can be read back (`Flow.Legible`), the rest of the flow is read whatever the row has for moments
(`Flow.flow_row_at`).  A row of which the lists nest too deep is not read at all
(`Flow.shallow_of_flow_row`).
-/

namespace Automation

open Json (Decoder Layout)
open Json.Layout (measures_flat measures_here measures_there)

theorem FlowRow.items_column {α : Type} {d : Decoder α} {fields : α → List (String × Value)}
    {xs : List α}
    (hdepth : (Value.array (xs.map fun x => .object (fields x))).nesting < Json.depthLimit)
    (h : ∀ x ∈ xs, (⟨true, 1⟩ : Json.Reading).Allows (Value.object (fields x)).nesting →
      d.Takes ⟨true, 1⟩ (.object (fields x)) x) :
    items d (column fields xs) = .ok xs := by
  have hallows : (⟨true, 0⟩ : Json.Reading).Allows
      (Value.array (xs.map fun x => .object (fields x))).nesting := by
    intro _
    rwa [Nat.zero_add]
  have htakes := Decoder.takes_list hallows fun x hx =>
    h x hx (hallows.inner (Value.nesting_lt_array (List.mem_map_of_mem hx)))
  rw [items, column, String.toList_ofList, Decoder.ofText_print htakes]
  rfl

namespace Flow

/-- What a flow has to be like for its lists to be read back. -/
structure Legible (f : Flow) : Prop where
  nodes : ∀ n ∈ f.nodes, n.Storable
  declarations : ∀ v ∈ f.declarations, v.value.Ordered
  nodes_nesting : (encodeNodes f.nodes).nesting < Json.depthLimit
  declarations_nesting : (encodeVariables f.declarations).nesting < Json.depthLimit

/-- What a flow has to be like for its row to be read as the flow. -/
structure Storable (f : Flow) : Prop where
  nodes : ∀ n ∈ f.nodes, n.Storable
  declarations : ∀ v ∈ f.declarations, v.value.Ordered
  nodes_nesting : (encodeNodes f.nodes).nesting < Json.depthLimit
  declarations_nesting : (encodeVariables f.declarations).nesting < Json.depthLimit
  created : ∀ t, f.createdAt = some t → t.Writable
  updated : ∀ t, f.updatedAt = some t → t.Writable

theorem Storable.legible {f : Flow} (hf : f.Storable) : f.Legible :=
  ⟨hf.nodes, hf.declarations, hf.nodes_nesting, hf.declarations_nesting⟩

/-- What is written for the lists of a flow does not nest too deep. -/
structure Shallow (f : Flow) : Prop where
  nodes : (encodeNodes f.nodes).nesting < Json.depthLimit
  declarations : (encodeVariables f.declarations).nesting < Json.depthLimit

/-- The row of a flow with the moments that it names. -/
def row (f : Flow) : FlowRow := .ofFlow f (f.createdAt.getD default) (f.updatedAt.getD default)

theorem flow_row_at {f : Flow} (hf : f.Legible) (created updated : String) :
    FlowRow.flow { f.row with createdAt := created, updatedAt := updated } =
      .ok { f with
        createdAt := Instant.ofColumn? created, updatedAt := Instant.ofColumn? updated } := by
  have hactive : FlowRow.active f.row.isActive = .ok f.isActive := by
    cases hactive : f.isActive <;> simp [row, FlowRow.ofFlow, FlowRow.active, hactive]
  have hnodes : FlowRow.items Node.decoder f.row.nodes = .ok f.nodes := by
    have hdepth := hf.nodes_nesting
    rw [encodeNodes, Value.nesting_array_congr Node.nesting_encode] at hdepth
    exact FlowRow.items_column hdepth fun n hn hinner => n.takes_fields (hf.nodes n hn) hinner
  have hedges : FlowRow.items Edge.decoder f.row.edges = .ok f.edges := by
    have hflat : Value.nestingOfItems (f.edges.map fun e => .object e.fields) ≤ 1 := by
      rw [Value.nestingOfItems_le_iff]
      intro v hv
      obtain ⟨e, -, rfl⟩ := List.mem_map.1 hv
      exact Nat.le_of_eq e.nesting_fields
    have hdepth : (Value.array (f.edges.map fun e => .object e.fields)).nesting < Json.depthLimit := by
      rw [Value.nesting]
      exact Nat.lt_of_le_of_lt (Nat.succ_le_succ hflat) (by decide)
    exact FlowRow.items_column hdepth fun e _ hinner => e.takes_fields hinner
  have hdeclarations : FlowRow.items Variable.decoder f.row.declarations = .ok f.declarations := by
    have hdepth := hf.declarations_nesting
    rw [encodeVariables, Value.nesting_array_congr Variable.nesting_encode] at hdepth
    exact FlowRow.items_column hdepth fun v hv hinner => v.takes_fields (hf.declarations v hv) hinner
  simp only [FlowRow.flow, hactive, hnodes, hedges, hdeclarations]
  rfl

theorem flow_row {f : Flow} (hf : f.Storable) (hcreated : f.createdAt ≠ none)
    (hupdated : f.updatedAt ≠ none) : f.row.flow = .ok f := by
  obtain ⟨created, hc⟩ := Option.ne_none_iff_exists'.1 hcreated
  obtain ⟨updated, hu⟩ := Option.ne_none_iff_exists'.1 hupdated
  have hcreatedAt : Instant.ofColumn? f.row.createdAt = f.createdAt := by
    rw [row, hc]
    exact created.ofColumn?_column (hf.created created hc)
  have hupdatedAt : Instant.ofColumn? f.row.updatedAt = f.updatedAt := by
    rw [row, hu]
    exact updated.ofColumn?_column (hf.updated updated hu)
  have hread := flow_row_at hf.legible f.row.createdAt f.row.updatedAt
  rw [hcreatedAt, hupdatedAt] at hread
  exact hread

end Flow

/-! ## What is not read -/

theorem Position.measures_encode (p : Position) : Position.decoder.Measures p.encode := by
  refine Layout.measures_object (List.forall_mem_cons.2 ⟨?_, List.forall_mem_singleton.2 ?_⟩)
  · exact Layout.measures_flat (Value.nesting_ofDouble p.x)
  · exact Layout.measures_flat (Value.nesting_ofDouble p.y)

theorem Node.measures_fields (n : Node) : Node.decoder.Measures (.object n.fields) := by
  have hposition : layout.Measures "position" n.position.encode :=
    measures_there (by decide) <| measures_there (by decide) <| measures_there (by decide) <|
      measures_here n.position.measures_encode
  have hdata : layout.Measures "data" (.object n.data) :=
    measures_there (by decide) <| measures_there (by decide) <| measures_there (by decide) <|
      measures_there (by decide) <| measures_here (Decoder.measures_record n.data)
  exact Layout.measures_object (List.forall_mem_cons.2 ⟨measures_flat rfl, List.forall_mem_cons.2
    ⟨measures_flat rfl, List.forall_mem_cons.2 ⟨measures_flat rfl, List.forall_mem_cons.2
      ⟨hposition, List.forall_mem_singleton.2 hdata⟩⟩⟩⟩)

theorem Variable.measures_fields (v : Variable) : Variable.decoder.Measures (.object v.fields) := by
  have hvalue : layout.Measures "value" v.value :=
    measures_there (by decide) (measures_here (Decoder.measures_any v.value))
  exact Layout.measures_object (List.forall_mem_cons.2 ⟨measures_flat rfl, List.forall_mem_cons.2
    ⟨hvalue, List.forall_mem_singleton.2 (measures_flat rfl)⟩⟩)

theorem FlowRow.nesting_lt_of_items {α : Type} {d : Decoder α} {fields : α → List (String × Value)}
    {xs ys : List α} (hd : ∀ x, d.Measures (.object (fields x)))
    (h : items d (column fields xs) = .ok ys) :
    (Value.array (xs.map fun x => .object (fields x))).nesting < Json.depthLimit := by
  rw [items, column, String.toList_ofList] at h
  exact (Decoder.measures_list (List.forall_mem_map.2 fun x _ => hd x)).nesting_lt
    (Checks.mapError_eq_ok_iff.1 h)

/-- A row is read only if the lists of its flow do not nest too deep. -/
theorem Flow.shallow_of_flow_row {f g : Flow} (h : f.row.flow = .ok g) : f.Shallow := by
  simp only [FlowRow.flow, Checks.bind_eq_ok_iff] at h
  obtain ⟨_, -, nodes, hnodes, _, -, declarations, hdeclarations, -⟩ := h
  have hnesting := FlowRow.nesting_lt_of_items Node.measures_fields hnodes
  have hnesting' := FlowRow.nesting_lt_of_items Variable.measures_fields hdeclarations
  rw [← Value.nesting_array_congr Node.nesting_encode] at hnesting
  rw [← Value.nesting_array_congr Variable.nesting_encode] at hnesting'
  exact ⟨hnesting, hnesting'⟩

end Automation
