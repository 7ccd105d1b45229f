import Automation.Graph.Validation
import Automation.Proofs.Graph.Cycle
import Automation.Proofs.Node.Config
import Mathlib.Data.List.Count

/-!
# Validation is exact

`Flow.validate` collects the issues of five checks.  A report is valid exactly if none of them has an
issue (`isValid_validate_iff`), and each check has none exactly if what it checks holds of the whole
flow.  Put together, a flow is valid exactly if it is well formed (`isValid_iff_wellFormed`).

One check leans on another.  Cycles are looked for from nodes only, so a cycle among ids of no node is
not found; but then its edges have unknown ends, and these are.

The errors of a report say which check they are from by their texts alone.  `validate_exact` counts
two kinds of them in the whole report: an id has an issue for each time it comes up again, and each
unknown end of an edge has one.
-/

namespace Automation

/-! ## Kinds of issues -/

namespace Issue

def duplicateNode (id : String) : Issue := ⟨some id, "duplicate node id"⟩

def unknownNode (e : Edge) (id : String) : Issue :=
  ⟨none, "edge " ++ e.source ++ " -> " ++ e.target ++ " references unknown node '" ++ id ++ "'"⟩

def isAboutEdge (i : Issue) : Bool := "edge ".toList.isPrefixOf i.message.toList

theorem isAboutEdge_duplicateNode (id : String) : (duplicateNode id).isAboutEdge = false := by
  show "edge ".toList.isPrefixOf "duplicate node id".toList = false
  decide

theorem isAboutEdge_unknownNode (e : Edge) (id : String) : (unknownNode e id).isAboutEdge = true := by
  simp only [isAboutEdge, unknownNode, String.toList_append, List.append_assoc]
  rfl

theorem isAboutEdge_configuration (id? : Option String) (m : String) :
    isAboutEdge ⟨id?, "Configuration error: " ++ m⟩ = false := by
  rw [isAboutEdge, String.toList_append]
  rfl

theorem duplicateNode_injective : Function.Injective duplicateNode := by
  intro id id' h
  exact Option.some.inj (congrArg nodeId h)

theorem duplicateNode_ne_configuration (id id' m : String) :
    duplicateNode id ≠ ⟨some id', "Configuration error: " ++ m⟩ := by
  intro h
  have hmessage := congrArg (fun i => i.message.toList) h
  simp only [duplicateNode, String.toList_append] at hmessage
  cases hmessage

end Issue

namespace Flow

variable {f : Flow} {pfx : String}

theorem isValid_validate_iff :
    (f.validate pfx).isValid ↔
      f.duplicateIssues = [] ∧ f.edgeIssues = [] ∧ f.triggerIssues pfx = [] ∧
        f.configIssues pfx = [] ∧ f.cycleIssues = [] := by
  simp only [Report.isValid, validate, List.isEmpty_iff, List.append_eq_nil_iff, and_assoc]

/-! ## Ids of nodes -/

/-- An id is repeated as often as it comes up, but for the first time. -/
theorem count_repeated (seen ids : List String) (id : String) :
    (repeated seen ids).count id = ids.count id - if id ∈ seen then 0 else 1 := by
  induction ids generalizing seen with
  | nil => simp [repeated]
  | cons x ids ih =>
    rw [repeated]
    by_cases hx : x ∈ seen
    · rw [if_pos (by simpa using hx)]
      simp only [List.count_cons, ih]
      by_cases hid : x = id
      · subst hid
        simp [hx]
      · simp [hid]
    · rw [if_neg (by simpa using hx), ih, List.count_cons]
      by_cases hid : x = id
      · subst hid
        simp [hx]
      · simp [hid, Ne.symm hid]

theorem duplicateIssues_eq : f.duplicateIssues = (repeated [] f.nodeIds).map Issue.duplicateNode := rfl

theorem count_duplicateIssues (id : String) :
    f.duplicateIssues.count (.duplicateNode id) = f.nodeIds.count id - 1 := by
  rw [duplicateIssues_eq, List.count_map_of_injective _ _ Issue.duplicateNode_injective,
    count_repeated, if_neg List.not_mem_nil]

theorem duplicateIssues_eq_nil_iff : f.duplicateIssues = [] ↔ f.nodeIds.Nodup := by
  rw [duplicateIssues_eq, List.map_eq_nil_iff, List.nodup_iff_count_le_one,
    List.eq_nil_iff_forall_not_mem]
  refine forall_congr' fun id => ?_
  rw [← List.count_eq_zero, count_repeated, if_neg List.not_mem_nil, Nat.sub_eq_zero_iff_le]

/-! ## Ends of edges -/

def edgeEnds (f : Flow) : List (Edge × String) :=
  f.edges.flatMap fun e => [(e, e.source), (e, e.target)]

theorem edgeIssues_eq :
    f.edgeIssues = (f.edgeEnds.filter fun x => !f.nodeIds.contains x.2).map fun x =>
      Issue.unknownNode x.1 x.2 := by
  rw [edgeIssues, edgeEnds, List.filter_flatMap, List.map_flatMap]
  refine List.flatMap_congr fun e _ => ?_
  have hends : [(e, e.source), (e, e.target)] = [e.source, e.target].map fun id => (e, id) := rfl
  rw [unknownEnds, hends, List.filter_map, List.map_map]
  rfl

theorem unknownEnds_eq_nil_iff {e : Edge} :
    f.unknownEnds e = [] ↔ e.source ∈ f.nodeIds ∧ e.target ∈ f.nodeIds := by
  simp [unknownEnds, List.filter_eq_nil_iff]

theorem edgeIssues_eq_nil_iff :
    f.edgeIssues = [] ↔ ∀ e ∈ f.edges, e.source ∈ f.nodeIds ∧ e.target ∈ f.nodeIds := by
  simp only [edgeIssues, List.flatMap_eq_nil_iff, List.map_eq_nil_iff, unknownEnds_eq_nil_iff]

/-! ## Triggers and configurations -/

theorem triggerIssues_eq_nil_iff :
    f.triggerIssues pfx = [] ↔ ∃ n ∈ f.nodes, n.isTrigger pfx := by
  have hids : (f.triggerIds pfx).isEmpty = false ↔ ∃ n ∈ f.nodes, n.isTrigger pfx := by
    simp [triggerIds]
  rw [triggerIssues, ← hids]
  cases (f.triggerIds pfx).isEmpty <;> simp

theorem eq_of_mem_triggerIssues {i : Issue} (hi : i ∈ f.triggerIssues pfx) :
    i = ⟨none, "flow has no trigger node"⟩ := by
  rw [triggerIssues] at hi
  split at hi
  · exact List.mem_singleton.1 hi
  · cases hi

theorem configIssues_eq_nil_iff :
    f.configIssues pfx = [] ↔ ∀ n ∈ f.nodes, ∃ c, NodeConfig.ofNode n pfx = .ok c := by
  rw [configIssues, List.filterMap_eq_nil_iff]
  refine forall₂_congr fun n _ => ?_
  cases NodeConfig.ofNode n pfx <;> simp

theorem exists_of_mem_configIssues {i : Issue} (hi : i ∈ f.configIssues pfx) :
    ∃ id m, i = ⟨some id, "Configuration error: " ++ m⟩ := by
  obtain ⟨n, -, hn⟩ := List.mem_filterMap.1 hi
  cases hread : NodeConfig.ofNode n pfx with
  | ok c =>
    rw [hread] at hn
    cases hn
  | error e =>
    obtain ⟨m, rfl⟩ := NodeConfig.exists_of_ofNode_error hread
    rw [hread] at hn
    exact ⟨n.id, m, (Option.some.inj hn).symm⟩

/-! ## Cycles -/

theorem cycleIssues_eq_nil_iff : f.cycleIssues = [] ↔ f.findCycle? f.nodeIds = none := by
  rw [cycleIssues]
  cases f.findCycle? f.nodeIds <;> simp

theorem exists_of_mem_cycleIssues {i : Issue} (hi : i ∈ f.cycleIssues) :
    ∃ id, i = ⟨some id, "cycle detected"⟩ := by
  rw [cycleIssues] at hi
  split at hi
  · exact ⟨_, List.mem_singleton.1 hi⟩
  · cases hi

/-- Where edges have nodes at their ends, the search from all nodes misses no cycle: every id on a
cycle is the source of an edge. -/
theorem findCycle?_nodeIds_eq_none_iff (hends : ∀ e ∈ f.edges, e.source ∈ f.nodeIds) :
    f.findCycle? f.nodeIds = none ↔ ∀ id, ¬Graph.OnCycle f.edges id := by
  rw [findCycle?_eq_none_iff]
  constructor
  · intro hnone id hcycle
    obtain ⟨_, ⟨e, he, hsource, -⟩, -⟩ := Relation.TransGen.head'_iff.1 hcycle
    exact hnone id (hsource ▸ hends e he) id .refl hcycle
  · intro hacyclic _ _ id _
    exact hacyclic id

/-! ## The whole report -/

/-- What a flow has to be like to be run. -/
structure WellFormed (f : Flow) (pfx : String) : Prop where
  distinct : f.nodeIds.Nodup
  joined : ∀ e ∈ f.edges, e.source ∈ f.nodeIds ∧ e.target ∈ f.nodeIds
  triggered : ∃ n ∈ f.nodes, n.isTrigger pfx
  configured : ∀ n ∈ f.nodes, ∃ c, NodeConfig.ofNode n pfx = .ok c
  acyclic : ∀ id, ¬Graph.OnCycle f.edges id

theorem isValid_iff_wellFormed : (f.validate pfx).isValid ↔ f.WellFormed pfx := by
  rw [isValid_validate_iff, duplicateIssues_eq_nil_iff, edgeIssues_eq_nil_iff,
    triggerIssues_eq_nil_iff, configIssues_eq_nil_iff, cycleIssues_eq_nil_iff]
  constructor
  · rintro ⟨hdistinct, hends, htriggers, hconfigs, hcycles⟩
    exact ⟨hdistinct, hends, htriggers, hconfigs,
      (findCycle?_nodeIds_eq_none_iff fun e he => (hends e he).1).1 hcycles⟩
  · rintro ⟨hdistinct, hends, htriggers, hconfigs, hacyclic⟩
    exact ⟨hdistinct, hends, htriggers, hconfigs,
      (findCycle?_nodeIds_eq_none_iff fun e he => (hends e he).1).2 hacyclic⟩

theorem toResult_eq_ok_iff (r : Report) : r.toResult = .ok () ↔ r.isValid := by
  rw [Report.toResult, Report.isValid]
  cases r.errors.isEmpty <;> simp

/-- Only the check of ids finds ids that come up again. -/
theorem count_duplicateNode (id : String) :
    (f.validate pfx).errors.count (.duplicateNode id) = f.nodeIds.count id - 1 := by
  have hedges : f.edgeIssues.count (.duplicateNode id) = 0 := by
    rw [List.count_eq_zero, edgeIssues_eq]
    intro hmem
    obtain ⟨x, -, hx⟩ := List.mem_map.1 hmem
    cases congrArg Issue.nodeId hx
  have htriggers : (f.triggerIssues pfx).count (.duplicateNode id) = 0 :=
    List.count_eq_zero.2 fun hmem => by cases congrArg Issue.nodeId (eq_of_mem_triggerIssues hmem)
  have hconfigs : (f.configIssues pfx).count (.duplicateNode id) = 0 := by
    rw [List.count_eq_zero]
    intro hmem
    obtain ⟨id', m, h⟩ := exists_of_mem_configIssues hmem
    exact Issue.duplicateNode_ne_configuration id id' m h
  have hcycles : f.cycleIssues.count (.duplicateNode id) = 0 := by
    rw [List.count_eq_zero]
    intro hmem
    obtain ⟨id', h⟩ := exists_of_mem_cycleIssues hmem
    exact absurd (congrArg Issue.message h) (by simp [Issue.duplicateNode])
  rw [validate, List.count_append, List.count_append, List.count_append, List.count_append, hedges,
    htriggers, hconfigs, hcycles, count_duplicateIssues]
  rfl

/-- Only the check of edges has something to say about edges. -/
theorem filter_isAboutEdge : (f.validate pfx).errors.filter Issue.isAboutEdge = f.edgeIssues := by
  have hduplicates : f.duplicateIssues.filter Issue.isAboutEdge = [] := by
    rw [List.filter_eq_nil_iff, duplicateIssues_eq]
    intro i hi
    obtain ⟨id, -, rfl⟩ := List.mem_map.1 hi
    simp [Issue.isAboutEdge_duplicateNode]
  have hedges : f.edgeIssues.filter Issue.isAboutEdge = f.edgeIssues := by
    rw [List.filter_eq_self, edgeIssues_eq]
    intro i hi
    obtain ⟨x, -, rfl⟩ := List.mem_map.1 hi
    exact Issue.isAboutEdge_unknownNode x.1 x.2
  have htriggers : (f.triggerIssues pfx).filter Issue.isAboutEdge = [] := by
    rw [List.filter_eq_nil_iff]
    intro i hi
    rw [eq_of_mem_triggerIssues hi]
    decide
  have hconfigs : (f.configIssues pfx).filter Issue.isAboutEdge = [] := by
    rw [List.filter_eq_nil_iff]
    intro i hi
    obtain ⟨id, m, rfl⟩ := exists_of_mem_configIssues hi
    simp [Issue.isAboutEdge_configuration]
  have hcycles : f.cycleIssues.filter Issue.isAboutEdge = [] := by
    rw [List.filter_eq_nil_iff]
    intro i hi
    obtain ⟨id, rfl⟩ := exists_of_mem_cycleIssues hi
    show ¬"edge ".toList.isPrefixOf "cycle detected".toList = true
    decide
  rw [validate, List.filter_append, List.filter_append, List.filter_append, List.filter_append,
    hduplicates, hedges, htriggers, hconfigs, hcycles, List.nil_append, List.append_nil,
    List.append_nil, List.append_nil]

/-- A flow passes validation exactly if it is well formed.  Its errors have an issue for each time that
the id of a node comes up again, and for each end of an edge that is no id of a node. -/
theorem validate_exact (f : Flow) (pfx : String) :
    ((f.validate pfx).isValid ↔ f.WellFormed pfx) ∧
      ((f.validate pfx).toResult = .ok () ↔ (f.validate pfx).isValid) ∧
      (∀ id, (f.validate pfx).errors.count (.duplicateNode id) = f.nodeIds.count id - 1) ∧
      (f.validate pfx).errors.filter Issue.isAboutEdge =
        (f.edgeEnds.filter fun x => !f.nodeIds.contains x.2).map fun x =>
          Issue.unknownNode x.1 x.2 :=
  ⟨isValid_iff_wellFormed, toResult_eq_ok_iff _, count_duplicateNode,
    filter_isAboutEdge.trans edgeIssues_eq⟩

end Flow

end Automation
