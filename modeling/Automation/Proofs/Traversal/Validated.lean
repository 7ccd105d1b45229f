import Automation.Proofs.Graph.Cycle
import Automation.Proofs.Graph.Validation
import Automation.Proofs.Traversal.History
import Automation.Proofs.Traversal.Reachable

/-!
# Runs of a valid flow

A flow is checked when it is saved and run later.  `result_of_isValid` says that the check is enough:
a run of a valid flow that is not cancelled ends well, or with the failure of one of its nodes where
the settings let that failure end it.

The run can fail in four places, and each is closed by a check of its own.  The entry exists since
there is a trigger.  No cycle is reached from the entry, since none is reached from any node.  Every
id on the stack is that of a node, since the ends of all edges are.  And the configuration of a node
is read by the run as it was by the check.
-/

namespace Automation

variable {σ : Type} {f : Flow}

namespace Flow

theorem exists_node? {id : String} (hid : id ∈ f.nodeIds) : ∃ n, f.node? id = some n := by
  obtain ⟨n, hmem, rfl⟩ := List.mem_map.mp hid
  have hsome : (f.nodes.find? fun m => m.id = n.id).isSome := by
    rw [List.find?_isSome]
    exact ⟨n, hmem, by simp⟩
  exact Option.isSome_iff_exists.mp hsome

theorem id_mem_nodeIds {n : Node} (hn : n ∈ f.nodes) : n.id ∈ f.nodeIds :=
  List.mem_map_of_mem hn

end Flow

namespace Traversal

variable {policy : FanOut} {h : Handler σ} {cancelled : σ → Bool}

theorem followed_subset (htargets : ∀ e ∈ f.edges, e.target ∈ f.nodeIds) (id : String)
    (branch : Option String) : followed f id branch ⊆ f.nodeIds := by
  intro target htarget
  obtain ⟨e, he, rfl⟩ := List.mem_map.mp htarget
  exact htargets e (List.mem_of_mem_filter (List.mem_of_mem_filter he))

/-- Where all edges lead to nodes, only ids of nodes get on the stack. -/
theorem stack_subset (htargets : ∀ e ∈ f.edges, e.target ∈ f.nodeIds) {s s' : Stand σ}
    (hs : Step policy h cancelled f s s') (hstack : s.stack ⊆ f.nodeIds) :
    s'.stack ⊆ f.nodeIds := by
  cases hs with
  | seen hv => exact List.subset_of_cons_subset hstack
  | completed hv hc hn hr =>
    have hrest := List.subset_of_cons_subset hstack
    exact List.append_subset.mpr ⟨followed_subset htargets _ _, hrest⟩
  | abandoned hp hv hc hn hr => exact List.subset_of_cons_subset hstack

end Traversal

namespace Run

open Traversal

theorem exists_entry {pfx : String} {entryId : Option String}
    (htrigger : ∃ n ∈ f.nodes, n.isTrigger pfx) (hid : ∀ id ∈ entryId, id ∈ f.nodeIds) :
    ∃ first ∈ f.nodes, entry f pfx entryId = .ok first := by
  cases entryId with
  | none =>
    have hsome : (f.nodes.find? (Node.isTrigger pfx)).isSome := List.find?_isSome.mpr htrigger
    obtain ⟨first, hfirst⟩ := Option.isSome_iff_exists.mp hsome
    exact ⟨first, List.mem_of_find?_eq_some hfirst, by rw [entry, Flow.trigger?, hfirst]⟩
  | some id =>
    obtain ⟨first, hfirst⟩ := Flow.exists_node? (hid id rfl)
    exact ⟨first, Flow.mem_of_node? hfirst, by rw [entry, hfirst]⟩

/-- A run of a valid flow that begins at a trigger or at a node of the flow, and that is not
cancelled, calls nodes with a configuration only.  It ends well, or with the failure of a node of the
flow if the first failure is to end it. -/
theorem result_of_isValid (config : EngineConfig) (h : Handler σ) (cancelled : σ → Bool) (f : Flow)
    (input : Record) (entryId : Option String) (world : σ)
    (hvalid : (f.validate config.triggerPrefix).isValid) (hid : ∀ id ∈ entryId, id ∈ f.nodeIds)
    (hrunning : ∀ s, Passes config h cancelled f input entryId world s →
      cancelled s.progress.world.1 = false) :
    (∀ c ∈ calls config h cancelled f input entryId world,
      ∃ read, NodeConfig.ofNode c.node config.triggerPrefix = .ok read) ∧
    ((∃ r, (runWith config h cancelled f input entryId world).result = .ok r) ∨
      config.fanOut = .abortAll ∧ ∃ n ∈ f.nodes, ∃ cause,
        (runWith config h cancelled f input entryId world).result =
          .error (.inNode n.id n.displayName cause)) := by
  obtain ⟨-, hedges, htriggers, hconfigs, hcycles⟩ := Flow.isValid_validate_iff.mp hvalid
  have hends := Flow.edgeIssues_eq_nil_iff.mp hedges
  have htargets : ∀ e ∈ f.edges, e.target ∈ f.nodeIds := fun e he => (hends e he).2
  obtain ⟨first, hfirst, hentry⟩ := exists_entry (Flow.triggerIssues_eq_nil_iff.mp htriggers) hid
  -- The check searches from all nodes and the run from its entry alone.
  have hc : f.findCycle? [first.id] = none :=
    Flow.findCycle?_eq_none_of_subset (by simpa using Flow.id_mem_nodeIds hfirst)
      (Flow.cycleIssues_eq_nil_iff.mp hcycles)
  constructor
  · intro c hmem
    obtain ⟨last, hhist⟩ := exists_history config h cancelled f input entryId world
    exact Flow.configIssues_eq_nil_iff.mp hconfigs c.node (hhist.of_mem hmem).1
  · obtain ⟨s, outcome, p, hs, hstop, hres, -⟩ :=
      runWith_stops config h cancelled f input entryId world hentry hc
    have hstack : s.stack ⊆ f.nodeIds := by
      refine hs.keeps (fun first' hentry' => ?_) (stack_subset htargets)
      obtain rfl : first' = first := Except.ok.inj (hentry'.symm.trans hentry)
      simpa using Flow.id_mem_nodeIds hfirst
    cases hstop with
    | finished => exact Or.inl ⟨_, hres⟩
    | cancelled hv hcancel => exact absurd (hrunning _ hs) (by simpa using hcancel)
    | missing hv hcancel hn =>
      obtain ⟨n, hnode⟩ := Flow.exists_node? (hstack List.mem_cons_self)
      rw [hn] at hnode
      cases hnode
    | aborted hp hv hcancel hn hr =>
      exact Or.inr ⟨hp, _, Flow.mem_of_node? hn, _, hres⟩

/-- The fork is valid, and its node `left` fails: by the default settings that ends the run. -/
theorem result_of_isValid_fork :
    (fork.validate EngineConfig.default.triggerPrefix).isValid ∧
      (∀ c ∈ calls .default forkHandler (fun _ => false) fork [] none (),
        ∃ read, NodeConfig.ofNode c.node EngineConfig.default.triggerPrefix = .ok read) ∧
      ∃ n ∈ fork.nodes, ∃ cause,
        (runWith .default forkHandler (fun _ => false) fork [] none ()).result =
          .error (.inNode n.id n.displayName cause) := by
  have hvalid : (fork.validate EngineConfig.default.triggerPrefix).isValid := by
    refine Flow.isValid_validate_iff.mpr ⟨?_, ?_, ?_, ?_, ?_⟩
    · decide
    · decide
    · rfl
    · rfl
    · cbv
  let first : Node := .new "start" "trigger_fork"
  have he : entry fork EngineConfig.default.triggerPrefix none = .ok first := rfl
  have hc : fork.findCycle? [first.id] = none := by cbv
  obtain ⟨e, p, ht⟩ : ∃ e p, Traversal.traverse .abortAll forkHandler (fun _ => false) fork
      [first.id] [] (begun fork [] first ()) = (.error e, p) :=
    ⟨_, _, @Traversal.traverse_of_within _ _ _ _ _ 2 2 _ _ _ _ rfl⟩
  have hfails : (runWith .default forkHandler (fun _ => false) fork [] none ()).result =
      .error e := by
    rw [runWith_of_entry he hc, show EngineConfig.default.fanOut = .abortAll from rfl, ht]
  obtain ⟨hread, hend⟩ := result_of_isValid .default forkHandler (fun _ => false) fork [] none ()
    hvalid (by simp) (fun _ _ => rfl)
  refine ⟨hvalid, hread, ?_⟩
  rcases hend with ⟨r, hr⟩ | ⟨-, hnode⟩
  · rw [hfails] at hr
    cases hr
  · exact hnode

end Run

end Automation
