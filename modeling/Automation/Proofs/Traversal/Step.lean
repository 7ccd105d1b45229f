import Automation.Run.Engine
import Mathlib.Logic.Relation

/-!
# Traversal turn by turn

A `Stand` is where a run stands between two turns of its loop.  `Step` says what a turn can lead to
when the run goes on after it, `Stop` how the last turn ends the run, and each of their cases lists
what it takes and what it changes.  Every run is some steps and then a stop (`traverse_stops`), so a
property that each step keeps holds of the stand that the run stops at (`Stand.keeps`), and what a
result says about a run is read off the case of its stop.

With an allowance the loop is a recursion that evaluates (`traverseWithin`).  Where it does not give up,
its result is that of the traversal (`traverse_of_within`).
-/

namespace Automation

def Record.branch? (output : Record) : Option String :=
  (output.get? handleKey).map fun v => .ofList v.text

namespace Progress

variable {σ : Type}

/-- The progress when the handler of a node has come back and its result is not yet taken in. -/
def ran (p : Progress σ) (n : Node) (context : Context) (world : σ) : Progress σ :=
  { p.tell (.nodeStarted n.id n.type) with context, world }

def failed (p : Progress σ) (n : Node) (e : Failure) : Progress σ :=
  p.tell (.nodeFailed n.id (e.inNode n.id n.displayName).message)

end Progress

namespace Traversal

variable {σ : Type}

/-! ## What a visit does -/

section Visit

variable {policy : FanOut} {h : Handler σ} {n : Node} {p : Progress σ} {context : Context}
  {world : σ}

theorem visit_of_ok {output : Record}
    (hr : h n p.context p.world = ((.ok output, context), world)) :
    visit policy h n p = (.follow output.branch?, (p.ran n context world).complete n output) := by
  have hr' : h n (p.tell (.nodeStarted n.id n.type)).context
      (p.tell (.nodeStarted n.id n.type)).world = ((.ok output, context), world) := hr
  simp only [visit, hr']
  rfl

theorem visit_of_error {e : Failure}
    (hr : h n p.context p.world = ((.error e, context), world)) :
    visit policy h n p =
      match policy with
      | .abortAll => (.fail (e.inNode n.id n.displayName), (p.ran n context world).failed n e)
      | .continueSiblings =>
        (.skip, ((p.ran n context world).failed n e).abandon n (e.inNode n.id n.displayName)) := by
  have hr' : h n (p.tell (.nodeStarted n.id n.type)).context
      (p.tell (.nodeStarted n.id n.type)).world = ((.error e, context), world) := hr
  simp only [visit, hr']
  cases policy <;> rfl

variable {p' : Progress σ}

theorem ok_of_visit_follow {branch : Option String}
    (hvisit : visit policy h n p = (.follow branch, p')) :
    ∃ output context world, h n p.context p.world = ((.ok output, context), world) ∧
      branch = output.branch? ∧ p' = (p.ran n context world).complete n output := by
  rcases hr : h n p.context p.world with ⟨⟨e | output, context⟩, world⟩
  · rw [visit_of_error hr] at hvisit
    cases policy <;> cases hvisit
  · rw [visit_of_ok hr] at hvisit
    cases hvisit
    exact ⟨output, context, world, rfl, rfl, rfl⟩

theorem error_of_visit_skip (hvisit : visit policy h n p = (.skip, p')) :
    ∃ e context world, h n p.context p.world = ((.error e, context), world) ∧
      policy = .continueSiblings ∧
      p' = ((p.ran n context world).failed n e).abandon n (e.inNode n.id n.displayName) := by
  rcases hr : h n p.context p.world with ⟨⟨e | output, context⟩, world⟩
  · rw [visit_of_error hr] at hvisit
    cases policy <;> cases hvisit
    exact ⟨e, context, world, rfl, rfl, rfl⟩
  · rw [visit_of_ok hr] at hvisit
    cases hvisit

theorem error_of_visit_fail {e' : Failure} (hvisit : visit policy h n p = (.fail e', p')) :
    ∃ e context world, h n p.context p.world = ((.error e, context), world) ∧
      policy = .abortAll ∧ e' = e.inNode n.id n.displayName ∧
      p' = (p.ran n context world).failed n e := by
  rcases hr : h n p.context p.world with ⟨⟨e | output, context⟩, world⟩
  · rw [visit_of_error hr] at hvisit
    cases policy <;> cases hvisit
    exact ⟨e, context, world, rfl, rfl, rfl, rfl⟩
  · rw [visit_of_ok hr] at hvisit
    cases hvisit

end Visit

/-! ## Steps and stops -/

/-- Where a run stands: the ids still to be visited, those visited, and how far it has come. -/
structure Stand (σ : Type) where
  stack : List String
  visited : List String
  progress : Progress σ

variable (policy : FanOut) (h : Handler σ) (cancelled : σ → Bool) (f : Flow)

/-- A turn after which the run goes on: the id has been visited before, or its node completes, or
its node fails and its siblings are still to run. -/
inductive Step : Stand σ → Stand σ → Prop
  | seen {id : String} {stack visited : List String} {p : Progress σ} (hv : id ∈ visited) :
    Step ⟨id :: stack, visited, p⟩ ⟨stack, visited, p⟩
  | completed {id : String} {stack visited : List String} {p : Progress σ} {n : Node}
    {output : Record} {context : Context} {world : σ} (hv : id ∉ visited)
    (hc : cancelled p.world = false) (hn : f.node? id = some n)
    (hr : h n p.context p.world = ((.ok output, context), world)) :
    Step ⟨id :: stack, visited, p⟩
      ⟨followed f id output.branch? ++ stack, id :: visited,
        (p.ran n context world).complete n output⟩
  | abandoned {id : String} {stack visited : List String} {p : Progress σ} {n : Node}
    {e : Failure} {context : Context} {world : σ} (hp : policy = .continueSiblings)
    (hv : id ∉ visited) (hc : cancelled p.world = false) (hn : f.node? id = some n)
    (hr : h n p.context p.world = ((.error e, context), world)) :
    Step ⟨id :: stack, visited, p⟩
      ⟨stack, id :: visited,
        ((p.ran n context world).failed n e).abandon n (e.inNode n.id n.displayName)⟩

/-- The turn that ends a run, with its result and the progress made: nothing is left to visit, the
run is found to be cancelled, an id names no node, or a node fails and nothing is to run after it. -/
inductive Stop : Stand σ → Except Failure Unit → Progress σ → Prop
  | finished {visited : List String} {p : Progress σ} : Stop ⟨[], visited, p⟩ (.ok ()) p
  | cancelled {id : String} {stack visited : List String} {p : Progress σ} (hv : id ∉ visited)
    (hc : cancelled p.world = true) : Stop ⟨id :: stack, visited, p⟩ (.error .cancelled) p
  | missing {id : String} {stack visited : List String} {p : Progress σ} (hv : id ∉ visited)
    (hc : cancelled p.world = false) (hn : f.node? id = none) :
    Stop ⟨id :: stack, visited, p⟩ (.error (.nodeNotFound id)) p
  | aborted {id : String} {stack visited : List String} {p : Progress σ} {n : Node}
    {e : Failure} {context : Context} {world : σ} (hp : policy = .abortAll)
    (hv : id ∉ visited) (hc : cancelled p.world = false) (hn : f.node? id = some n)
    (hr : h n p.context p.world = ((.error e, context), world)) :
    Stop ⟨id :: stack, visited, p⟩ (.error (e.inNode n.id n.displayName))
      ((p.ran n context world).failed n e)

abbrev Steps : Stand σ → Stand σ → Prop := Relation.ReflTransGen (Step policy h cancelled f)

variable {policy h cancelled f}

theorem Stand.keeps {P : Stand σ → Prop} {s s' : Stand σ}
    (hstep : ∀ {s s' : Stand σ}, Step policy h cancelled f s s' → P s → P s')
    (hs : Steps policy h cancelled f s s') (hP : P s) : P s' := by
  induction hs with
  | refl => exact hP
  | tail _ hlast ih => exact hstep hlast ih

/-- A run is some steps and then a stop. -/
theorem traverse_stops (stack visited : List String) (p : Progress σ) :
    ∃ s, Steps policy h cancelled f ⟨stack, visited, p⟩ s ∧
      Stop policy h cancelled f s (traverse policy h cancelled f stack visited p).1
        (traverse policy h cancelled f stack visited p).2 := by
  fun_induction traverse policy h cancelled f stack visited p with
  | case1 visited p => exact ⟨_, .refl, .finished⟩
  | case2 id stack visited p hv ih =>
    obtain ⟨s, hs, hstop⟩ := ih
    exact ⟨s, .head (.seen hv) hs, hstop⟩
  | case3 id stack visited p hv hc => exact ⟨_, .refl, .cancelled hv hc⟩
  | case4 id stack visited p hv hc hn => exact ⟨_, .refl, .missing hv (by simpa using hc) hn⟩
  | case5 id stack visited p hv hc n hn e p' hvisit =>
    have hc' : cancelled p.world = false := by simpa using hc
    obtain ⟨e, context, world, hr, hp, rfl, rfl⟩ := error_of_visit_fail hvisit
    exact ⟨_, .refl, .aborted hp hv hc' hn hr⟩
  | case6 id stack visited p hv hc n hn p' hvisit ih =>
    have hc' : cancelled p.world = false := by simpa using hc
    obtain ⟨s, hs, hstop⟩ := ih
    obtain ⟨e, context, world, hr, hp, rfl⟩ := error_of_visit_skip hvisit
    exact ⟨s, .head (.abandoned hp hv hc' hn hr) hs, hstop⟩
  | case7 id stack visited p hv hc n hn branch p' hvisit ih =>
    have hc' : cancelled p.world = false := by simpa using hc
    obtain ⟨s, hs, hstop⟩ := ih
    obtain ⟨output, context, world, hr, rfl, rfl⟩ := ok_of_visit_follow hvisit
    exact ⟨s, .head (.completed hv hc' hn hr) hs, hstop⟩

theorem traverse_of_step {s s' : Stand σ} (hs : Step policy h cancelled f s s') :
    traverse policy h cancelled f s.stack s.visited s.progress =
      traverse policy h cancelled f s'.stack s'.visited s'.progress := by
  cases hs with
  | seen hv => rw [traverse, dif_pos hv]
  | completed hv hc hn hr =>
    rw [traverse, dif_neg hv, if_neg (by simp [hc]), hn]
    simp only [visit_of_ok hr]
  | abandoned hp hv hc hn hr =>
    rw [traverse, dif_neg hv, if_neg (by simp [hc]), hn]
    simp only [visit_of_error hr, hp]

theorem traverse_of_steps {s s' : Stand σ} (hs : Steps policy h cancelled f s s') :
    traverse policy h cancelled f s.stack s.visited s.progress =
      traverse policy h cancelled f s'.stack s'.visited s'.progress := by
  induction hs with
  | refl => rfl
  | tail _ hlast ih => exact ih.trans (traverse_of_step hlast)

theorem traverse_of_stop {s : Stand σ} {outcome : Except Failure Unit} {p : Progress σ}
    (hs : Stop policy h cancelled f s outcome p) :
    traverse policy h cancelled f s.stack s.visited s.progress = (outcome, p) := by
  cases hs with
  | finished => rw [traverse]
  | cancelled hv hc => rw [traverse, dif_neg hv, if_pos hc]
  | missing hv hc hn => rw [traverse, dif_neg hv, if_neg (by simp [hc]), hn]
  | aborted hp hv hc hn hr =>
    rw [traverse, dif_neg hv, if_neg (by simp [hc]), hn]
    simp only [visit_of_error hr, hp]

/-- A run that ends well has gone on until nothing was left to visit. -/
theorem steps_of_traverse_ok {stack visited : List String} {p p' : Progress σ}
    (ht : traverse policy h cancelled f stack visited p = (.ok (), p')) :
    ∃ visited', Steps policy h cancelled f ⟨stack, visited, p⟩ ⟨[], visited', p'⟩ := by
  obtain ⟨s, hs, hstop⟩ := @traverse_stops σ policy h cancelled f stack visited p
  rw [ht] at hstop
  cases hstop with
  | finished => exact ⟨_, hs⟩

/-! ## The loop with an allowance -/

/-- The loop with an allowance of ids to take off the stack and of nodes to run.  It recurses on the
first, so that it ends whether the loop does or not. -/
def traverseWithin (policy : FanOut) (h : Handler σ) (cancelled : σ → Bool) (f : Flow) :
    (pops runs : Nat) → (stack visited : List String) → Progress σ →
      Option (Except Failure Unit × Progress σ)
  | _, _, [], _, p => some (.ok (), p)
  | 0, _, _ :: _, _, _ => none
  | pops + 1, runs, id :: stack, visited, p =>
    if id ∈ visited then traverseWithin policy h cancelled f pops runs stack visited p
    else if cancelled p.world then some (.error .cancelled, p)
    else
      match f.node? id with
      | none => some (.error (.nodeNotFound id), p)
      | some n =>
        match runs with
        | 0 => none
        | runs + 1 =>
          match visit policy h n p with
          | (.fail e, p) => some (.error e, p)
          | (.skip, p) => traverseWithin policy h cancelled f pops runs stack (id :: visited) p
          | (.follow branch, p) =>
            traverseWithin policy h cancelled f pops runs (followed f id branch ++ stack)
              (id :: visited) p

/-- Where the loop does not give up, it comes to the result of the traversal. -/
theorem traverse_of_within {pops runs : Nat} {stack visited : List String} {p : Progress σ}
    {r : Except Failure Unit × Progress σ}
    (hr : traverseWithin policy h cancelled f pops runs stack visited p = some r) :
    traverse policy h cancelled f stack visited p = r := by
  induction pops generalizing runs stack visited p with
  | zero =>
    cases stack with
    | nil =>
      rw [traverseWithin, Option.some.injEq] at hr
      rw [traverse, hr]
    | cons id stack => cases hr
  | succ pops ih =>
    cases stack with
    | nil =>
      rw [traverseWithin, Option.some.injEq] at hr
      rw [traverse, hr]
    | cons id stack =>
      rw [traverseWithin] at hr
      rw [traverse]
      by_cases hv : id ∈ visited
      · rw [if_pos hv] at hr
        rw [dif_pos hv, ih hr]
      · rw [if_neg hv] at hr
        rw [dif_neg hv]
        by_cases hc : cancelled p.world = true
        · rw [if_pos hc, Option.some.injEq] at hr
          rw [if_pos hc, hr]
        · rw [if_neg hc] at hr
          rw [if_neg hc]
          cases hn : f.node? id with
          | none => simpa [hn] using hr
          | some n =>
            rw [hn] at hr
            cases runs with
            | zero => cases hr
            | succ runs =>
              rcases hvisit : visit policy h n p with ⟨branch | _ | e, p'⟩ <;>
                simp only [hvisit] at hr ⊢
              · exact ih hr
              · exact ih hr
              · exact Option.some.inj hr

end Traversal

namespace Run

variable {σ : Type} {config : EngineConfig} {h : Handler σ} {cancelled : σ → Bool} {f : Flow}
  {input : Record} {entryId : Option String} {world : σ}

def begun (f : Flow) (input : Record) (first : Node) (world : σ) : Progress σ :=
  (Progress.start (Context.start f input) world).tell (.runStarted f.id first.id)

theorem runWith_of_entry {first : Node} (he : entry f config.triggerPrefix entryId = .ok first)
    (hc : f.findCycle? [first.id] = none) :
    runWith config h cancelled f input entryId world =
      match Traversal.traverse config.fanOut h cancelled f [first.id] []
        (begun f input first world) with
      | (.error e, p) => ⟨.error e, (p.tell (.runFailed f.id e.message)).events, p.world⟩
      | (.ok (), p) =>
        ⟨.ok (resultOf p), (p.tell (.runCompleted f.id p.steps.length)).events, p.world⟩ := by
  rw [runWith, he]
  simp only [hc]
  rfl

/-- A run that ends well within an allowance has a result.  What is seen of its progress is seen without
going through the flow. -/
theorem exists_result_of_within {α : Type} {first : Node} {view : Progress σ → α} {seen : α}
    (pops runs : Nat)
    (he : entry f config.triggerPrefix entryId = .ok first) (hc : f.findCycle? [first.id] = none)
    (hk : (Traversal.traverseWithin config.fanOut h cancelled f pops runs [first.id] []
      (begun f input first world)).map (fun r => (r.1.isOk, view r.2)) = some (true, seen)) :
    ∃ p, (runWith config h cancelled f input entryId world).result = .ok (resultOf p) ∧
      view p = seen := by
  obtain ⟨⟨outcome, p⟩, ht, hp⟩ := Option.map_eq_some_iff.mp hk
  obtain ⟨hok, hseen⟩ := Prod.mk.inj hp
  refine ⟨p, ?_, hseen⟩
  rw [runWith_of_entry he hc, Traversal.traverse_of_within ht]
  cases outcome with
  | error e => cases hok
  | ok _ => rfl

/-- A run that has a result has begun at its entry and gone through the flow from there. -/
theorem traverse_of_runWith_ok {r : RunResult}
    (hr : (runWith config h cancelled f input entryId world).result = .ok r) :
    ∃ first p, entry f config.triggerPrefix entryId = .ok first ∧
      f.findCycle? [first.id] = none ∧
      Traversal.traverse config.fanOut h cancelled f [first.id] [] (begun f input first world) =
        (.ok (), p) ∧
      r = resultOf p := by
  cases he : entry f config.triggerPrefix entryId with
  | error e =>
    rw [runWith, he] at hr
    cases hr
  | ok first =>
    cases hc : f.findCycle? [first.id] with
    | some id =>
      rw [runWith, he] at hr
      simp only [hc] at hr
      cases hr
    | none =>
      rw [runWith_of_entry he hc] at hr
      rcases ht : Traversal.traverse config.fanOut h cancelled f [first.id] []
        (begun f input first world) with ⟨e | _, p⟩
      · rw [ht] at hr
        cases hr
      · rw [ht] at hr
        cases hr
        exact ⟨first, p, rfl, hc, ht, rfl⟩

end Run

end Automation
