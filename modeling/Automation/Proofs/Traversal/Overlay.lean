import Automation.Proofs.Traversal.Handle

/-!
# The state of a run as an overlay

What a run holds at any moment is told by the calls that it has made: its variables are what has been
written to them last, its output is that of the node that completed last, and its messages are those
of the nodes that prepare one, in order.  `Overlaid` says this of some calls and what is held after
them, and `overlaid_of_result` that it is true of every run, at its end and before each of its calls.

A node writes to the state while it runs, and its output is taken in afterwards.  That the two agree
is the matter of the section on what nodes write: the variable that a node sets is all of its output
(`scope_under_output`), and a node that fails has written nothing.
-/

namespace Automation

variable {σ : Type}

def Call.message? (triggerPrefix : String) (c : Call) : Option Outbound :=
  match NodeConfig.ofNode c.node triggerPrefix, c.left.1 with
  | .ok (.message m), .ok _ => some (m.outbound c.node.id c.before)
  | _, _ => none

/-- All that has been written to the variables of a run: the declarations of the flow, its input, and
the outputs of the nodes that completed. -/
def Run.written (f : Flow) (input : Record) (calls : List Call) : List (String × Value) :=
  f.declarations.map (fun v => (v.name, v.value)) ++ input ++ (calls.filterMap Call.output?).flatten

/-- What a run holds after some calls.  Nothing is said of the key under which outputs name a
branch. -/
structure Run.Overlaid (f : Flow) (triggerPrefix : String) (input : Record) (calls : List Call)
    (scope output : Record) (outbound : List Outbound) : Prop where
  scope : ∀ key, key ≠ handleKey → scope.get? key = Keyed.latest? (written f input calls) key
  output : output = ((calls.filterMap Call.output?).getLast?).getD []
  outbound : outbound = calls.filterMap (Call.message? triggerPrefix)

/-! ## What nodes write -/

namespace NodeConfig.Leaves

variable {id : String} {before : Context} {read : Except Failure NodeConfig} {left : Left}

/-- What a node has written to the scope is in its output as well. -/
theorem scope_under_output (hl : Leaves id before read left) {output : Record}
    (hout : left.1 = .ok output) (key : String) :
    (Keyed.latest? output key).or (left.2.scope.get? key) =
      (Keyed.latest? output key).or (before.scope.get? key) := by
  cases hl with
  | assignment c hname =>
    cases hout
    show (Keyed.latest? [(c.name, c.assigned before)] key).or
      (Keyed.get? (Keyed.insert c.name (c.assigned before) before.scope) key) = _
    rw [Keyed.latest?_singleton, Keyed.get?_insert]
    by_cases hk : c.name = key
    · rw [if_pos hk]
      rfl
    · rw [if_neg hk, if_neg hk]
  | _ => rfl

end NodeConfig.Leaves

theorem Call.outbound_eq {triggerPrefix : String} {c : Call}
    (hl : NodeConfig.Leaves c.node.id c.before (NodeConfig.ofNode c.node triggerPrefix) c.left) :
    c.left.2.outbound = c.before.outbound ++ [c].filterMap (Call.message? triggerPrefix) := by
  obtain ⟨n, before, left⟩ := c
  dsimp only at hl ⊢
  rw [List.filterMap_cons, Call.message?]
  dsimp only
  generalize NodeConfig.ofNode n triggerPrefix = read at hl ⊢
  cases hl with
  | message c => rfl
  | _ => exact (List.append_nil _).symm

namespace Run

variable {f : Flow} {triggerPrefix : String} {input : Record} {calls : List Call} {c : Call}

theorem filterMap_output?_of_error (calls : List Call) {e : Failure} (he : c.left.1 = .error e) :
    (calls ++ [c]).filterMap Call.output? = calls.filterMap Call.output? := by
  rw [List.filterMap_append, List.filterMap_cons_none (Call.output?_of_error he),
    List.filterMap_nil, List.append_nil]

theorem filterMap_output?_of_ok (calls : List Call) {output : Record} (hout : c.left.1 = .ok output) :
    (calls ++ [c]).filterMap Call.output? = calls.filterMap Call.output? ++ [output] := by
  rw [List.filterMap_append, List.filterMap_cons_some (Call.output?_of_ok hout),
    List.filterMap_nil]

theorem Overlaid.after
    (hl : NodeConfig.Leaves c.node.id c.before (NodeConfig.ofNode c.node triggerPrefix) c.left)
    (ho : Overlaid f triggerPrefix input calls c.before.scope c.before.output c.before.outbound) :
    Overlaid f triggerPrefix input (calls ++ [c]) c.after.scope c.after.output c.after.outbound := by
  have hsent : c.left.2.outbound = (calls ++ [c]).filterMap (Call.message? triggerPrefix) := by
    rw [Call.outbound_eq hl, ho.outbound, List.filterMap_append]
  cases hout : c.left.1 with
  | error e =>
    have houtputs := filterMap_output?_of_error calls hout
    have hsame : c.left.2 = c.before := hl.context_of_error hout
    rw [Call.after_of_error hout]
    refine ⟨?_, ?_, hsent⟩
    · rw [written, houtputs, hsame]
      exact ho.scope
    · rw [houtputs, hsame]
      exact ho.output
  | ok output =>
    have houtputs := filterMap_output?_of_ok calls hout
    rw [Call.after_of_ok hout]
    refine ⟨?_, ?_, hsent⟩
    · intro key hkey
      have hwritten : written f input (calls ++ [c]) = written f input calls ++ output := by
        rw [written, written, houtputs, List.flatten_append, List.flatten_singleton,
          ← List.append_assoc]
      -- What the node has written by itself is written once more when its output is taken in.
      calc (c.left.2.absorb output).scope.get? key
          = (Keyed.latest? output key).or (c.left.2.scope.get? key) := by
            rw [Context.get?_absorb, if_neg hkey]
        _ = (Keyed.latest? output key).or (c.before.scope.get? key) :=
            hl.scope_under_output hout key
        _ = Keyed.latest? (written f input (calls ++ [c])) key := by
            rw [ho.scope key hkey, hwritten, Keyed.latest?_append]
    · show output = _
      rw [houtputs, List.getLast?_concat]
      rfl

theorem Overlaid.start :
    Overlaid f triggerPrefix input [] (Context.start f input).scope (Context.start f input).output
      (Context.start f input).outbound where
  scope := by
    intro key _
    rw [Context.get?_start, written, List.filterMap_nil, List.flatten_nil, List.append_nil]
  output := rfl
  outbound := rfl

end Run

namespace History

open Run

variable {s : Services} {w : World σ} {f : Flow} {input : Record} {calls : List Call} {last : Context}

theorem overlaid (hist : History (Node.run s w) f (.start f input) calls last) :
    Overlaid f s.config.engine.triggerPrefix input calls last.scope last.output last.outbound := by
  induction hist with
  | start => exact Overlaid.start
  | call past hn hr ih => exact ih.after (c := ⟨_, _, _⟩) (NodeConfig.leaves_of_run hr)

end History

namespace Run

/-- The result of a run is the overlay of its steps: the declared variables under the input under the
outputs of the nodes that completed.  Each node is given the overlay of the steps before it, and one
that fails leaves it as it is. -/
theorem overlaid_of_result (s : Services) (w : World σ) (f : Flow) (input : Record)
    (entryId : Option String) (world : σ) {r : RunResult}
    (hr : (execute s w f input entryId world).result = .ok r) :
    r.steps = ((executed s w f input entryId world).filter Call.completes).map Call.step ∧
    Overlaid f s.config.engine.triggerPrefix input (executed s w f input entryId world)
      r.scope r.output r.outbound ∧
    ∀ earlier c later, executed s w f input entryId world = earlier ++ c :: later →
      Overlaid f s.config.engine.triggerPrefix input earlier
        c.before.scope c.before.output c.before.outbound ∧
      ∀ e, c.left.1 = .error e → c.left.2 = c.before := by
  obtain ⟨last, hist, hscope, houtput, houtbound, hsteps⟩ := history_of_result hr
  refine ⟨hsteps, ?_, ?_⟩
  · rw [hscope, houtput, houtbound]
    exact hist.overlaid
  · intro earlier c later hcalls
    have hist' : History (Node.run s w) f (.start f input) (earlier ++ c :: later) last :=
      hcalls ▸ hist
    have hleaves := hist'.leaves_of_mem (List.mem_append_right earlier List.mem_cons_self)
    exact ⟨hist'.split.1.overlaid, fun e he => hleaves.context_of_error he⟩

/-- A flow that greets, with a request that fails because it has no URL. -/
def greeting : Flow :=
  { Flow.new "greeting" with
    declarations := [.new "greeting" (.string "Hello")]
    nodes := [.new "start" "trigger_greeting", .new "fetch" "http_request",
      ((Node.new "name" "set_variable").configure "name" (.string "name")).configure "value"
        (.string "Ann"),
      (Node.new "say" "send_message").configure "message"
        (.string "\x7b\x7bgreeting\x7d\x7d \x7b\x7bname\x7d\x7d")]
    edges := [.new "start" "fetch", .new "start" "name", .new "name" "say"] }

theorem overlaid_of_result_greeting :
    ∃ r, (execute tolerantServices Rehearsal.world greeting [("greeting", .string "Hi")] none
        quietRehearsal).result = .ok r ∧
      r.steps.map StepRecord.nodeId = ["start", "name", "say"] ∧
      r.failures.map Abandoned.nodeId = ["fetch"] ∧
      r.outbound.map Outbound.text = ["Hi Ann"] ∧
      Overlaid greeting "trigger_" [("greeting", .string "Hi")]
        (executed tolerantServices Rehearsal.world greeting [("greeting", .string "Hi")] none
          quietRehearsal) r.scope r.output r.outbound := by
  let input : Record := [("greeting", .string "Hi")]
  let first : Node := .new "start" "trigger_greeting"
  have he : entry greeting tolerantServices.config.engine.triggerPrefix none = .ok first := rfl
  have hc : greeting.findCycle? [first.id] = none := by
    show Graph.searchRoots [.new "start" "fetch", .new "start" "name", .new "name" "say"]
      ["start"] [] = none
    cbv
  obtain ⟨p, hr, hseen⟩ : ∃ p, (execute tolerantServices Rehearsal.world greeting input none
      quietRehearsal).result = .ok (resultOf p) ∧
      (p.steps.map StepRecord.nodeId, p.failures.map Abandoned.nodeId,
          p.context.outbound.map Outbound.text) =
        (["start", "name", "say"], ["fetch"], ["Hi Ann"]) :=
    exists_result_of_within 5 5 he hc (by decide +kernel)
  simp only [Prod.mk.injEq] at hseen
  obtain ⟨hsteps, hfailures, htexts⟩ := hseen
  obtain ⟨-, hoverlaid, -⟩ := overlaid_of_result tolerantServices Rehearsal.world greeting input none
    quietRehearsal hr
  exact ⟨resultOf p, hr, hsteps, hfailures, htexts, hoverlaid⟩

end Run

end Automation
