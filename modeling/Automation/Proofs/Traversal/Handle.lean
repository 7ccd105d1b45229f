import Automation.Proofs.Run.Effects
import Automation.Proofs.Traversal.DepthFirst
import Automation.Proofs.Traversal.History
import Automation.Rehearsal
import Mathlib.Data.List.Basic

/-!
# The branch and the scope

An output may name a branch, under a key that is left out of what the scope takes in, so that no later
output that is made of the scope names the branch again.  A node that sets a variable writes to the
scope by itself, though, and may set one of that name.

`handle_free_iff` says that no other node brings a branch into the scope, and that in a run without
such a node all edges are followed but those of nodes that choose a branch.  In a run with such a node
edges can be lost (`lost_edge_marking`).
-/

namespace Automation

variable {σ : Type}

namespace NodeConfig

/-- Whether a node sets a variable that has the name of the key of branches. -/
def SetsHandle (read : Except Failure NodeConfig) : Prop :=
  ∃ c, read = .ok (.assignment c) ∧ c.name = handleKey

namespace Leaves

variable {id : String} {before : Context} {read : Except Failure NodeConfig} {left : Left}

theorem scope_handle_iff (hl : Leaves id before read left) :
    left.2.scope.get? handleKey = none ↔
      before.scope.get? handleKey = none ∧ ¬SetsHandle read := by
  cases hl with
  | assignment c hname =>
    show Keyed.get? (Keyed.insert c.name (c.assigned before) before.scope) handleKey = none ↔ _
    rw [Keyed.get?_insert]
    by_cases hc : c.name = handleKey
    · rw [if_pos hc]
      exact ⟨nofun, fun h => absurd ⟨c, rfl, hc⟩ h.2⟩
    · rw [if_neg hc]
      refine ⟨fun h => ⟨h, ?_⟩, And.left⟩
      rintro ⟨c', hc', hset⟩
      cases hc'
      exact hc hset
  | nameless c hname =>
    refine ⟨fun h => ⟨h, ?_⟩, And.left⟩
    rintro ⟨c', hc', hset⟩
    cases hc'
    -- The name of the key is not empty.
    exact absurd (hname.symm.trans hset) (by decide)
  | _ =>
    refine ⟨fun h => ⟨h, ?_⟩, And.left⟩
    rintro ⟨c', hc', -⟩
    cases hc'

/-- Where neither the input nor the scope holds a branch, only the nodes that choose or set one name
it in their output. -/
theorem output_handle (hl : Leaves id before read left)
    (hinput : before.input.get? handleKey = none) (hscope : before.scope.get? handleKey = none)
    (hbranch : ∀ c, read ≠ .ok (.branch c)) (hset : ¬SetsHandle read) {output : Record}
    (hout : left.1 = .ok output) : output.get? handleKey = none := by
  cases hl with
  | unreadable e => cases hout
  | trigger =>
    cases hout
    exact hinput
  | agent c answer =>
    cases answer <;> cases hout
    rfl
  | request c response =>
    cases response <;> cases hout
    rfl
  | query c outcome =>
    rcases outcome with e | rows | n <;> cases hout
    all_goals
      unfold QueryConfig.output
      cases c.operation <;> rfl
  | branch c => exact absurd rfl (hbranch c)
  | delay c ending =>
    cases ending <;> cases hout
    exact hscope
  | message c =>
    cases hout
    rfl
  | assignment c hname =>
    cases hout
    rw [Keyed.get?, if_neg fun hc => hset ⟨c, rfl, hc⟩]
    rfl
  | nameless c hname =>
    cases hout
    exact hscope
  | unknown type =>
    cases hout
    exact hscope

end Leaves

end NodeConfig

def Call.SetsHandle (triggerPrefix : String) (c : Call) : Prop :=
  NodeConfig.SetsHandle (NodeConfig.ofNode c.node triggerPrefix)

theorem Call.after_handle (c : Call) :
    c.after.scope.get? handleKey = c.left.2.scope.get? handleKey := by
  unfold Call.after
  cases c.left.1 with
  | error e => rfl
  | ok output => exact (Context.get?_absorb ..).trans (if_pos rfl)

namespace History

variable {s : Services} {w : World σ} {f : Flow} {first last : Context} {calls : List Call}

/-- A branch is in the scope once a node has set it, and not before. -/
theorem scope_handle_iff (hist : History (Node.run s w) f first calls last)
    (hfirst : first.scope.get? handleKey = none) :
    last.scope.get? handleKey = none ↔
      ∀ c ∈ calls, ¬c.SetsHandle s.config.engine.triggerPrefix := by
  induction hist with
  | start => simpa using hfirst
  | call past hn hr ih =>
    rw [Call.after_handle, (NodeConfig.leaves_of_run hr).scope_handle_iff, ih, List.forall_mem_append,
      List.forall_mem_singleton]
    exact Iff.rfl

variable {c : Call}

/-- In a history in which no node sets a branch, none is given a scope that holds one. -/
theorem before_handle (hist : History (Node.run s w) f first calls last)
    (hfirst : first.scope.get? handleKey = none)
    (hnone : ∀ c ∈ calls, ¬c.SetsHandle s.config.engine.triggerPrefix) (hc : c ∈ calls) :
    c.before.scope.get? handleKey = none := by
  obtain ⟨earlier, later, rfl⟩ := List.append_of_mem hc
  exact (hist.split.1.scope_handle_iff hfirst).mpr fun c hc =>
    hnone c (List.mem_append_left _ hc)

theorem before_input (hist : History (Node.run s w) f first calls last) (hc : c ∈ calls) :
    c.before.input = first.input := by
  obtain ⟨earlier, later, rfl⟩ := List.append_of_mem hc
  exact hist.split.1.input_eq

end History

namespace Run

open Traversal

section HasState

variable (s : Services) (w : World σ) (f : Flow) (input : Record) (entryId : Option String)
  (world : σ)

/-- A state that a run is in, between two of its turns or when a node has come back and what it has
left is not yet taken in. -/
inductive HasState : Context → Prop
  | between {stand : Stand (σ × List Call)}
    (hs : Passes s.config.engine (Node.run s w) w.cancelled f input entryId world stand) :
    HasState stand.progress.context
  | within {c : Call} (hc : c ∈ executed s w f input entryId world) : HasState c.left.2

/-- Where neither a declaration nor the input of a run has the name of the key of branches, a branch
gets into the scope exactly if some node sets it.  If none does, all edges of every node that
completes are followed, unless the node is one that chooses a branch. -/
theorem handle_free_iff (hdeclared : ∀ v ∈ f.declarations, v.name ≠ handleKey)
    (hinput : input.get? handleKey = none) :
    ((∀ context, HasState s w f input entryId world context →
        context.scope.get? handleKey = none) ↔
      ∀ c ∈ executed s w f input entryId world, ¬c.SetsHandle s.config.engine.triggerPrefix) ∧
    ((∀ c ∈ executed s w f input entryId world, ¬c.SetsHandle s.config.engine.triggerPrefix) →
      ∀ c ∈ executed s w f input entryId world,
        (∀ b, NodeConfig.ofNode c.node s.config.engine.triggerPrefix ≠ .ok (.branch b)) →
        ∀ output, c.left.1 = .ok output →
          followed f c.node.id output.branch? = (f.outgoing c.node.id).map Edge.target) := by
  have hfirst : (Context.start f input).scope.get? handleKey = none :=
    Context.get?_start_eq_none_iff.mpr ⟨hdeclared, hinput⟩
  obtain ⟨last, hist⟩ :=
    exists_history s.config.engine (Node.run s w) w.cancelled f input entryId world
  constructor
  · constructor
    · intro hfree c hc
      exact ((hist.leaves_of_mem hc).scope_handle_iff.mp (hfree _ (.within hc))).2
    · intro hnone context hstate
      cases hstate with
      | between hs =>
        refine ((history_of_passes hs).scope_handle_iff hfirst).mpr fun c hc => ?_
        exact hnone c (hs.calls_prefix.subset hc)
      | within hc =>
        have hbefore := hist.before_handle hfirst hnone hc
        exact (hist.leaves_of_mem hc).scope_handle_iff.mpr ⟨hbefore, hnone _ hc⟩
  · intro hnone c hc hbranch output hout
    have hbefore := hist.before_handle hfirst hnone hc
    have hgiven : c.before.input.get? handleKey = none := by
      rw [hist.before_input hc]
      exact hinput
    rw [followed_branch?, onward,
      (hist.leaves_of_mem hc).output_handle hgiven hbefore hbranch (hnone c hc) hout]

end HasState

def marking (name : String) : Flow :=
  { Flow.new "marking" with
    nodes := [.new "start" "trigger_mark",
      ((Node.new "mark" "set_variable").configure "name" (.string name)).configure "value"
        (.string "x"),
      .new "next" "step"]
    edges := [.new "start" "mark", .new "mark" "next"] }

def quietRehearsal : Rehearsal := ⟨.zero, none, .lines [], .lines [], .unreachable, [], []⟩

theorem handle_free_iff_marking :
    (∀ context, HasState bareServices Rehearsal.world (marking "note") [] none quietRehearsal context →
      context.scope.get? handleKey = none) ∧
    ∀ c ∈ executed bareServices Rehearsal.world (marking "note") [] none quietRehearsal,
      ∀ output, c.left.1 = .ok output →
        followed (marking "note") c.node.id output.branch? =
          ((marking "note").outgoing c.node.id).map Edge.target := by
  have hread : (marking "note").nodes.map (NodeConfig.ofNode · "trigger_") =
      [.ok .trigger, .ok (.assignment ⟨"note", .string "x"⟩), .ok (.unknown "step")] := rfl
  obtain ⟨last, hist⟩ := exists_history bareServices.config.engine
    (Node.run bareServices Rehearsal.world) Rehearsal.world.cancelled (marking "note") [] none
    quietRehearsal
  have hcases : ∀ c ∈ executed bareServices Rehearsal.world (marking "note") [] none quietRehearsal,
      NodeConfig.ofNode c.node "trigger_" = .ok .trigger ∨
        NodeConfig.ofNode c.node "trigger_" = .ok (.assignment ⟨"note", .string "x"⟩) ∨
        NodeConfig.ofNode c.node "trigger_" = .ok (.unknown "step") := by
    intro c hc
    have hmem : NodeConfig.ofNode c.node "trigger_" ∈
        (marking "note").nodes.map (NodeConfig.ofNode · "trigger_") :=
      List.mem_map_of_mem (hist.of_mem hc).1
    rw [hread] at hmem
    simpa using hmem
  have hset : ∀ c ∈ executed bareServices Rehearsal.world (marking "note") [] none quietRehearsal,
      ¬c.SetsHandle bareServices.config.engine.triggerPrefix := by
    rintro c hc ⟨a, ha, hname⟩
    rcases hcases c hc with h | h | h <;> cases ha.symm.trans h
    exact absurd hname (by decide)
  obtain ⟨hfree, hfollowed⟩ := handle_free_iff bareServices Rehearsal.world (marking "note") [] none
    quietRehearsal (by decide) rfl
  refine ⟨hfree.mpr hset, fun c hc => hfollowed hset c hc fun b hb => ?_⟩
  rcases hcases c hc with h | h | h <;> cases hb.symm.trans h

/-- The node that sets the variable completes and its edge is not followed. -/
theorem lost_edge_marking :
    (∀ v ∈ (marking handleKey).declarations, v.name ≠ handleKey) ∧
    Keyed.get? ([] : Record) handleKey = none ∧
    ∃ r, (execute bareServices Rehearsal.world (marking handleKey) [] none quietRehearsal).result =
        .ok r ∧
      (r.scope.get? handleKey).bind Value.asString? = some "x" ∧
      r.steps.map StepRecord.nodeId = ["start", "mark"] := by
  refine ⟨by decide, rfl, ?_⟩
  let first : Node := .new "start" "trigger_mark"
  have he : entry (marking handleKey) bareServices.config.engine.triggerPrefix none = .ok first := rfl
  have hc : (marking handleKey).findCycle? [first.id] = none := by
    show Graph.searchRoots [.new "start" "mark", .new "mark" "next"] ["start"] [] = none
    cbv
  obtain ⟨p, hr, hseen⟩ : ∃ p, (execute bareServices Rehearsal.world (marking handleKey) [] none
      quietRehearsal).result = .ok (resultOf p) ∧
      ((p.context.scope.get? handleKey).bind Value.asString?, p.steps.map StepRecord.nodeId) =
        (some "x", ["start", "mark"]) :=
    exists_result_of_within 3 3 he hc (by decide +kernel)
  obtain ⟨hscope, hsteps⟩ := Prod.mk.inj hseen
  exact ⟨resultOf p, hr, hscope, hsteps⟩

end Run

end Automation
