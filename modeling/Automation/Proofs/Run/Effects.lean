import Automation.Proofs.Traversal.History
import Automation.Run.Dispatch

/-!
# What nodes leave behind

A node may change the state of a run by itself, before its output is taken in.  `Leaves` lists, with
one case for each type of node, what each leaves behind, whatever the world answers, and
`leaves_run` says that the list is complete.  Only two nodes change anything: one prepares a message,
the other sets a variable.

The scope of a run is then a matter of who wrote a key last.  `get?_start` and `get?_absorb` say so
of the two places at which records are laid over each other.
-/

namespace Automation

namespace Keyed

variable {α : Type}

/-- The value under the last member of a key. -/
def latest? (members : List (String × α)) (key : String) : Option α := members.reverse.lookup key

theorem latest?_nil (key : String) : latest? ([] : List (String × α)) key = none := rfl

theorem latest?_append (first last : List (String × α)) (key : String) :
    latest? (first ++ last) key = (latest? last key).or (latest? first key) := by
  rw [latest?, List.reverse_append, List.lookup_append]
  rfl

theorem latest?_singleton (k : String) (v : α) (key : String) :
    latest? [(k, v)] key = if k = key then some v else none := by
  by_cases hk : k = key
  · simp [latest?, hk]
  · simp [latest?, hk, Ne.symm hk]

theorem latest?_cons (k : String) (v : α) (members : List (String × α)) (key : String) :
    latest? ((k, v) :: members) key =
      (latest? members key).or (if k = key then some v else none) := by
  rw [← latest?_singleton, ← latest?_append, List.singleton_append]

theorem latest?_eq_none_iff {members : List (String × α)} {key : String} :
    latest? members key = none ↔ ∀ m ∈ members, m.1 ≠ key := by
  rw [latest?, List.lookup_eq_none_iff]
  simp only [List.mem_reverse, bne_iff_ne, ne_comm]

theorem get?_eq_none_iff {r : Keyed α} {key : String} :
    get? r key = none ↔ ∀ m ∈ r, m.1 ≠ key := by
  induction r with
  | nil => simp [get?]
  | cons m r ih =>
    rw [get?, List.forall_mem_cons, ← ih]
    by_cases hk : m.1 = key
    · rw [if_pos hk]
      exact ⟨fun h => absurd h (Option.some_ne_none _), fun h => absurd hk h.1⟩
    · rw [if_neg hk]
      exact ⟨fun h => ⟨hk, h⟩, And.right⟩

theorem latest?_filter (members : List (String × α)) (left key : String) :
    latest? (members.filter fun m => m.1 ≠ left) key =
      if key = left then none else latest? members key := by
  induction members with
  | nil => simp [latest?_nil]
  | cons m members ih =>
    obtain ⟨k, v⟩ := m
    by_cases hk : k = left
    · rw [List.filter_cons_of_neg (by simpa using hk), ih, latest?_cons]
      by_cases hkey : key = left
      · rw [if_pos hkey, if_pos hkey]
      · rw [if_neg hkey, if_neg hkey, if_neg fun h => hkey (h.symm.trans hk), Option.or_none]
    · rw [List.filter_cons_of_pos (by simpa using hk), latest?_cons, latest?_cons, ih]
      by_cases hkey : key = left
      · rw [if_pos hkey, if_pos hkey, if_neg fun h => hk (h.trans hkey)]
        rfl
      · rw [if_neg hkey, if_neg hkey]

theorem get?_overlay (base : Keyed α) (top : List (String × α)) (key : String) :
    get? (overlay base top) key = (latest? top key).or (get? base key) := by
  induction top generalizing base with
  | nil => rfl
  | cons m top ih =>
    obtain ⟨k, v⟩ := m
    rw [overlay_cons, ih, get?_insert, latest?_cons, Option.or_assoc]
    by_cases hk : k = key
    · rw [if_pos hk, if_pos hk, Option.some_or]
    · rw [if_neg hk, if_neg hk, Option.none_or]

end Keyed

namespace Context

open Keyed (latest?)

theorem get?_start (f : Flow) (input : Record) (key : String) :
    (start f input).scope.get? key =
      latest? (f.declarations.map (fun v => (v.name, v.value)) ++ input) key := by
  show Keyed.get? (Keyed.overlay (declared f) input) key = _
  rw [Keyed.get?_overlay, declared, Keyed.ofList, Keyed.get?_overlay, Keyed.latest?_append]
  exact congrArg _ (Option.or_none)

theorem get?_start_eq_none_iff {f : Flow} {input : Record} {key : String} :
    (start f input).scope.get? key = none ↔
      (∀ v ∈ f.declarations, v.name ≠ key) ∧ input.get? key = none := by
  rw [get?_start, Keyed.latest?_eq_none_iff, List.forall_mem_append, List.forall_mem_map,
    ← Keyed.get?_eq_none_iff]

/-- The scope takes in all of an output but the branch that it names. -/
theorem get?_absorb (c : Context) (output : Record) (key : String) :
    (c.absorb output).scope.get? key =
      if key = handleKey then c.scope.get? key
      else (latest? output key).or (c.scope.get? key) := by
  show Keyed.get? (Keyed.overlay c.scope _) key = _
  rw [Keyed.get?_overlay, Keyed.latest?_filter]
  by_cases hkey : key = handleKey
  · rw [if_pos hkey, if_pos hkey, Option.none_or]
  · rw [if_neg hkey, if_neg hkey]

end Context

variable {σ : Type}

namespace NodeConfig

/-- What a node leaves behind, by the reading of its configuration: its output or its failure, and
the state of the run.  `before` is the state that it was given. -/
inductive Leaves (id : String) (before : Context) : Except Failure NodeConfig → Left → Prop
  | unreadable (e : Failure) : Leaves id before (.error e) (.error e, before)
  | trigger : Leaves id before (.ok .trigger) (.ok before.input, before)
  | agent (c : AgentConfig) (answer : Except Failure String) :
    Leaves id before (.ok (.agent c)) (answer.map AgentConfig.output, before)
  | request (c : RequestConfig) (response : Except Failure Http.Response) :
    Leaves id before (.ok (.request c)) (response.map RequestConfig.output, before)
  | query (c : QueryConfig) (outcome : Except Failure SqlOutcome) :
    Leaves id before (.ok (.query c)) (outcome.map (QueryConfig.output c.operation), before)
  | branch (c : BranchConfig) :
    Leaves id before (.ok (.branch c)) (.ok (c.output before.scope), before)
  | delay (c : DelayConfig) (ending : Except Failure Unit) :
    Leaves id before (.ok (.delay c)) (ending.map fun () => before.scope, before)
  | message (c : MessageConfig) :
    Leaves id before (.ok (.message c))
      (.ok (c.output before), { before with outbound := before.outbound ++ [c.outbound id before] })
  | assignment (c : AssignmentConfig) (hname : c.name ≠ "") :
    Leaves id before (.ok (.assignment c))
      (.ok [(c.name, c.assigned before)],
        { before with scope := Keyed.insert c.name (c.assigned before) before.scope })
  | nameless (c : AssignmentConfig) (hname : c.name = "") :
    Leaves id before (.ok (.assignment c)) (.ok before.scope, before)
  | unknown (type : String) : Leaves id before (.ok (.unknown type)) (.ok before.scope, before)

section Perform

variable (s : Services) (w : World σ) (id : String) (before : Context) (world : σ)

theorem leaves_agent (c : AgentConfig) :
    Leaves id before (.ok (.agent c)) ((c.plan s before).perform w before world).1 := by
  unfold AgentConfig.plan
  cases c.callModel s with
  | error e => exact .agent c (.error e)
  | ok model =>
    cases c.messages s before with
    | error e => exact .agent c (.error e)
    | ok messages =>
      -- The answer is not waited for, cannot be had, or comes in pieces that may not fit together.
      show Leaves id before _ ((w.chat model messages world).1.settle _, before)
      rcases (w.chat model messages world).1 with _ | e | deltas
      · exact .agent c (.error .cancelled)
      · exact .agent c (.error e)
      · exact .agent c (completionText deltas)

theorem leaves_request (c : RequestConfig) :
    Leaves id before (.ok (.request c)) ((c.plan s before).perform w before world).1 := by
  unfold RequestConfig.plan
  cases c.url? with
  | none => exact .request c (.error _)
  | some url =>
    dsimp only
    split
    · cases c.access s with
      | error e => exact .request c (.error e)
      | ok access =>
        show Leaves id before _ ((w.request _ world).1.settle _, before)
        rcases (w.request _ world).1 with _ | response
        · exact .request c (.error .cancelled)
        · exact .request c response
    · exact .request c (.error _)

theorem leaves_query (c : QueryConfig) :
    Leaves id before (.ok (.query c)) ((c.plan s before).perform w before world).1 := by
  unfold QueryConfig.plan
  cases c.credential? with
  | none => exact .query c (.error _)
  | some credential =>
    dsimp only
    cases s.resolve .database credential with
    | error e => exact .query c (.error e)
    | ok access =>
      dsimp only
      cases c.statement before.scope with
      | error e => exact .query c (.error e)
      | ok statement => exact .query c (w.query access statement world).1

theorem leaves_delay (c : DelayConfig) :
    Leaves id before (.ok (.delay c)) ((c.plan s before).perform w before world).1 := by
  unfold DelayConfig.plan
  cases c.wait? s.config.engine.delayLimit with
  | none => exact .delay c (.ok ())
  | some time =>
    dsimp only
    by_cases htime : time = .zero
    · rw [if_pos htime]
      exact .delay c (.ok ())
    · rw [if_neg htime]
      show Leaves id before _ ((w.wait time world).1.settle _, before)
      rcases (w.wait time world).1 with _ | _
      · exact .delay c (.error .cancelled)
      · exact .delay c (.ok ())

theorem leaves_assignment (c : AssignmentConfig) :
    Leaves id before (.ok (.assignment c)) ((c.plan before).perform w before world).1 := by
  unfold AssignmentConfig.plan
  by_cases hname : c.name = ""
  · rw [if_pos (String.isEmpty_iff.mpr hname)]
    exact .nameless c hname
  · rw [if_neg fun h => hname (String.isEmpty_iff.mp h)]
    exact .assignment c hname

/-- Whatever the world answers, a node leaves nothing else behind. -/
theorem leaves_run (n : Node) :
    Leaves n.id before (ofNode n s.config.engine.triggerPrefix)
      (Node.run s w n before world).1 := by
  rw [Node.run, Node.plan]
  cases ofNode n s.config.engine.triggerPrefix with
  | error e => exact .unreadable e
  | ok c =>
    cases c with
    | trigger => exact .trigger
    | agent c => exact leaves_agent s w n.id before world c
    | request c => exact leaves_request s w n.id before world c
    | query c => exact leaves_query s w n.id before world c
    | branch c => exact .branch c
    | delay c => exact leaves_delay s w n.id before world c
    | message c => exact .message c
    | assignment c => exact leaves_assignment w n.id before world c
    | unknown type => exact .unknown type

theorem leaves_of_run {s : Services} {w : World σ} {n : Node} {before : Context} {left : Left}
    {world world' : σ} (hr : Node.run s w n before world = (left, world')) :
    Leaves n.id before (ofNode n s.config.engine.triggerPrefix) left := by
  have hl := leaves_run s w before world n
  rwa [hr] at hl

end Perform

namespace Leaves

variable {id : String} {before : Context} {read : Except Failure NodeConfig} {left : Left}

theorem context_of_error (hl : Leaves id before read left) {e : Failure} (he : left.1 = .error e) :
    left.2 = before := by
  cases hl with
  | message c => cases he
  | assignment c hname => cases he
  | _ => rfl

theorem input_eq (hl : Leaves id before read left) : left.2.input = before.input := by
  cases hl <;> rfl

end Leaves

end NodeConfig

theorem Call.after_input (c : Call) : c.after.input = c.left.2.input := by
  unfold Call.after
  cases c.left.1 <;> rfl

namespace History

variable {s : Services} {w : World σ} {f : Flow} {first last : Context} {calls : List Call} {c : Call}

theorem leaves_of_mem (hist : History (Node.run s w) f first calls last) (hc : c ∈ calls) :
    NodeConfig.Leaves c.node.id c.before
      (NodeConfig.ofNode c.node s.config.engine.triggerPrefix) c.left := by
  obtain ⟨-, _, _, hr⟩ := hist.of_mem hc
  exact NodeConfig.leaves_of_run hr

theorem input_eq (hist : History (Node.run s w) f first calls last) : last.input = first.input := by
  induction hist with
  | start => rfl
  | call past hn hr ih =>
    rw [Call.after_input, (NodeConfig.leaves_of_run hr).input_eq]
    exact ih

end History

def Run.executed (s : Services) (w : World σ) (f : Flow) (input : Record) (entryId : Option String)
    (world : σ) : List Call :=
  calls s.config.engine (Node.run s w) w.cancelled f input entryId world

end Automation
