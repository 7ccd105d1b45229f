import Automation.Proofs.Traversal.Calls

/-!
# The history of a run

The calls of a run are made one after another, and each finds the state of the run as the one before
it has left it.  `History` says no more than that: it knows nothing of stacks, visited ids and events.
A statement about the state of a run is then an induction on a history, with one case for a call, and
holds of every moment of the run, since a history is cut at any of its calls into shorter ones
(`History.split`).

`Run.Passes` are the stands that a run passes through between two turns.  At each of them the calls
made so far are a history that ends in its state (`history_of_passes`), and so are all calls of a run
(`exists_history`), whether it has a result or not.
-/

namespace Automation

variable {σ : Type}

namespace Call

def output? (c : Call) : Option Record := c.left.1.toOption

def failure? (c : Call) : Option Failure :=
  match c.left.1 with
  | .error e => some e
  | .ok _ => none

def step (c : Call) : StepRecord := ⟨c.node.id, c.node.displayName, c.node.type⟩

def after (c : Call) : Context :=
  match c.left.1 with
  | .ok output => c.left.2.absorb output
  | .error _ => c.left.2

section Outcome

variable {c : Call}

theorem output?_of_error {e : Failure} (he : c.left.1 = .error e) : c.output? = none := by
  rw [output?, he]
  rfl

theorem output?_of_ok {output : Record} (hout : c.left.1 = .ok output) :
    c.output? = some output := by
  rw [output?, hout]
  rfl

theorem after_of_error {e : Failure} (he : c.left.1 = .error e) : c.after = c.left.2 := by
  rw [after, he]

theorem after_of_ok {output : Record} (hout : c.left.1 = .ok output) :
    c.after = c.left.2.absorb output := by
  rw [after, hout]

end Outcome

end Call

/-- Calls made one after another on nodes of a flow, and the state of the run after them. -/
inductive History (h : Handler σ) (f : Flow) (first : Context) : List Call → Context → Prop
  | start : History h f first [] first
  | call {calls : List Call} {n : Node} {before : Context} {left : Left} {world world' : σ}
    (past : History h f first calls before) (hn : n ∈ f.nodes)
    (hr : h n before world = (left, world')) :
    History h f first (calls ++ [⟨n, before, left⟩]) (Call.after ⟨n, before, left⟩)

namespace History

variable {h : Handler σ} {f : Flow} {first last : Context}

/-- At each call of a history the calls before it are a history that ends in the state that it
finds. -/
theorem split {earlier later : List Call} {c : Call}
    (hist : History h f first (earlier ++ c :: later) last) :
    History h f first earlier c.before ∧ c.node ∈ f.nodes ∧
      ∃ world world', h c.node c.before world = (c.left, world') := by
  generalize hcalls : earlier ++ c :: later = calls at hist
  induction hist generalizing later with
  | start => simp at hcalls
  | @call calls n before left world world' past hn hr ih =>
    -- The call that was made last is the one to cut at, or it comes later.
    rcases List.eq_nil_or_concat later with rfl | ⟨later, c', rfl⟩
    · obtain ⟨rfl, hc⟩ := List.append_inj' hcalls rfl
      obtain rfl := List.head_eq_of_cons_eq hc
      exact ⟨past, hn, world, world', hr⟩
    · rw [List.concat_eq_append, ← List.cons_append, ← List.append_assoc] at hcalls
      exact ih (List.append_inj' hcalls rfl).1

theorem of_mem {calls : List Call} {c : Call} (hist : History h f first calls last)
    (hc : c ∈ calls) :
    c.node ∈ f.nodes ∧ ∃ world world', h c.node c.before world = (c.left, world') := by
  obtain ⟨earlier, later, rfl⟩ := List.append_of_mem hc
  exact hist.split.2

end History

/-! ## Stands and their histories -/

theorem Handler.of_recorded {h : Handler σ} {n : Node} {context : Context} {left : Left}
    {w w' : σ × List Call} (hr : h.recorded n context w = (left, w')) :
    h n context w.1 = (left, w'.1) := by
  cases hr
  rfl

theorem Flow.mem_of_node? {f : Flow} {id : String} {n : Node} (hn : f.node? id = some n) :
    n ∈ f.nodes :=
  List.mem_of_find?_eq_some hn

namespace Traversal

/-- What is told of the calls made so far: they are the history of the state, and those that completed
are the steps. -/
structure Stand.Recounts (h : Handler σ) (f : Flow) (first : Context)
    (s : Stand (σ × List Call)) : Prop where
  history : History h f first s.calls s.progress.context
  steps : s.progress.steps = (s.calls.filter Call.completes).map Call.step

namespace Stand.Recounts

variable {policy : FanOut} {h : Handler σ} {cancelled : σ × List Call → Bool} {f : Flow}
  {first : Context} {s s' : Stand (σ × List Call)}

theorem step (hs : Step policy h.recorded cancelled f s s') (hr : s.Recounts h f first) :
    s'.Recounts h f first := by
  obtain ⟨hhist, hsteps⟩ := hr
  cases hs with
  | seen hv => exact ⟨hhist, hsteps⟩
  | @completed id stack visited p n output context world hv hc hn hr =>
    have hcalls : world.2 = p.world.2 ++ [⟨n, p.context, (.ok output, context)⟩] :=
      Handler.recorded_calls hr
    constructor
    · show History h f first world.2 (context.absorb output)
      rw [hcalls]
      exact .call hhist (Flow.mem_of_node? hn) (Handler.of_recorded hr)
    · show p.steps ++ [_] = (world.2.filter Call.completes).map Call.step
      rw [hcalls, List.filter_append, List.map_append]
      exact congrArg (· ++ [_]) hsteps
  | @abandoned id stack visited p n e context world hp hv hc hn hr =>
    have hcalls : world.2 = p.world.2 ++ [⟨n, p.context, (.error e, context)⟩] :=
      Handler.recorded_calls hr
    constructor
    · show History h f first world.2 context
      rw [hcalls]
      exact .call hhist (Flow.mem_of_node? hn) (Handler.of_recorded hr)
    · show p.steps = (world.2.filter Call.completes).map Call.step
      rw [hcalls, List.filter_append, List.map_append]
      exact hsteps.trans (List.append_nil _).symm

end Stand.Recounts

section CallsPrefix

variable {policy : FanOut} {h : Handler σ} {cancelled : σ × List Call → Bool} {f : Flow}
  {s s' : Stand (σ × List Call)}

theorem calls_prefix_of_step (hs : Step policy h.recorded cancelled f s s') :
    s.calls <+: s'.calls := by
  cases hs with
  | seen hv => exact List.prefix_rfl
  | completed hv hc hn hr => exact ⟨_, (Handler.recorded_calls hr).symm⟩
  | abandoned hp hv hc hn hr => exact ⟨_, (Handler.recorded_calls hr).symm⟩

theorem calls_prefix_of_stop {outcome : Except Failure Unit} {p : Progress (σ × List Call)}
    (hs : Stop policy h.recorded cancelled f s outcome p) : s.calls <+: p.world.2 := by
  cases hs with
  | finished => exact List.prefix_rfl
  | cancelled hv hc => exact List.prefix_rfl
  | missing hv hc hn => exact List.prefix_rfl
  | aborted hp hv hc hn hr => exact ⟨_, (Handler.recorded_calls hr).symm⟩

end CallsPrefix

end Traversal

namespace Run

open Traversal

section Passes

variable (config : EngineConfig) (h : Handler σ) (cancelled : σ → Bool) (f : Flow) (input : Record)
  (entryId : Option String) (world : σ)

/-- The stands that a run passes through, with the calls that it has made by then. -/
def Passes (s : Stand (σ × List Call)) : Prop :=
  ∃ first, entry f config.triggerPrefix entryId = .ok first ∧ f.findCycle? [first.id] = none ∧
    Steps config.fanOut h.recorded (fun w => cancelled w.1) f
      ⟨[first.id], [], begun f input first (world, [])⟩ s

end Passes

variable {config : EngineConfig} {h : Handler σ} {cancelled : σ → Bool} {f : Flow} {input : Record}
  {entryId : Option String} {world : σ} {s : Stand (σ × List Call)}

theorem Passes.keeps {P : Stand (σ × List Call) → Prop}
    (hstart : ∀ first, entry f config.triggerPrefix entryId = .ok first →
      P ⟨[first.id], [], begun f input first (world, [])⟩)
    (hstep : ∀ {s s'}, Step config.fanOut h.recorded (fun w => cancelled w.1) f s s' → P s → P s')
    (hs : Passes config h cancelled f input entryId world s) : P s := by
  obtain ⟨first, he, -, hsteps⟩ := hs
  exact Stand.keeps hstep hsteps (hstart first he)

theorem recounts_of_passes (hs : Passes config h cancelled f input entryId world s) :
    s.Recounts h f (Context.start f input) :=
  hs.keeps (fun _ _ => ⟨.start, rfl⟩) Stand.Recounts.step

theorem history_of_passes (hs : Passes config h cancelled f input entryId world s) :
    History h f (Context.start f input) s.calls s.progress.context :=
  (recounts_of_passes hs).history

/-! ## The end of a run -/

theorem runWith_of_passes (hs : Passes config h cancelled f input entryId world s)
    {outcome : Except Failure Unit} {p : Progress (σ × List Call)}
    (ht : traverse config.fanOut h.recorded (fun w => cancelled w.1) f s.stack s.visited s.progress =
      (outcome, p)) :
    (runWith config h cancelled f input entryId world).result =
        outcome.map (fun () => resultOf p) ∧
      calls config h cancelled f input entryId world = p.world.2 ∧
      (runWith config h cancelled f input entryId world).world = p.world.1 := by
  obtain ⟨first, he, hc, hsteps⟩ := hs
  rw [runWith_recorded, calls, runWith_of_entry he hc, traverse_of_steps hsteps, ht]
  cases outcome <;> exact ⟨rfl, rfl, rfl⟩

/-- A run that begins passes through some stands and stops at the last of them. -/
theorem runWith_stops (config : EngineConfig) (h : Handler σ) (cancelled : σ → Bool) (f : Flow)
    (input : Record) (entryId : Option String) (world : σ) {first : Node}
    (he : entry f config.triggerPrefix entryId = .ok first) (hc : f.findCycle? [first.id] = none) :
    ∃ s outcome p, Passes config h cancelled f input entryId world s ∧
      Stop config.fanOut h.recorded (fun w => cancelled w.1) f s outcome p ∧
      (runWith config h cancelled f input entryId world).result =
        outcome.map (fun () => resultOf p) ∧
      calls config h cancelled f input entryId world = p.world.2 := by
  obtain ⟨s, hsteps, hstop⟩ := @traverse_stops _ config.fanOut h.recorded
    (fun w => cancelled w.1) f [first.id] [] (begun f input first (world, []))
  have hs : Passes config h cancelled f input entryId world s := ⟨first, he, hc, hsteps⟩
  obtain ⟨hresult, hcalls, -⟩ := runWith_of_passes hs (traverse_of_stop hstop)
  exact ⟨s, _, _, hs, hstop, hresult, hcalls⟩

/-- The calls made by a stand are the first of the run. -/
theorem Passes.calls_prefix (hs : Passes config h cancelled f input entryId world s) :
    s.calls <+: calls config h cancelled f input entryId world := by
  obtain ⟨s', hsteps, hstop⟩ := @traverse_stops _ config.fanOut h.recorded
    (fun w => cancelled w.1) f s.stack s.visited s.progress
  have hkept : s.calls <+: s'.calls :=
    Stand.keeps (P := fun s' => s.calls <+: s'.calls)
      (fun hstep hpre => hpre.trans (calls_prefix_of_step hstep)) hsteps List.prefix_rfl
  rw [(runWith_of_passes hs rfl).2.1]
  exact hkept.trans (calls_prefix_of_stop hstop)

theorem calls_of_not_begun
    (hnot : ∀ first, entry f config.triggerPrefix entryId = .ok first →
      f.findCycle? [first.id] ≠ none) :
    calls config h cancelled f input entryId world = [] := by
  rw [calls, runWith]
  cases he : entry f config.triggerPrefix entryId with
  | error e => rfl
  | ok first =>
    cases hc : f.findCycle? [first.id] with
    | none => exact absurd hc (hnot first he)
    | some id => simp only [hc]

theorem history_of_stop {outcome : Except Failure Unit} {p : Progress (σ × List Call)}
    (hs : Passes config h cancelled f input entryId world s)
    (hstop : Stop config.fanOut h.recorded (fun w => cancelled w.1) f s outcome p) :
    History h f (Context.start f input) p.world.2 p.context := by
  have hhist := history_of_passes hs
  cases hstop with
  | finished => exact hhist
  | cancelled hv hc => exact hhist
  | missing hv hc hn => exact hhist
  | @aborted id stack visited p n e context world hp hv hc hn hr =>
    have hcalls : world.2 = p.world.2 ++ [⟨n, p.context, (.error e, context)⟩] :=
      Handler.recorded_calls hr
    show History h f _ world.2 context
    rw [hcalls]
    exact .call hhist (Flow.mem_of_node? hn) (Handler.of_recorded hr)

theorem exists_history (config : EngineConfig) (h : Handler σ) (cancelled : σ → Bool) (f : Flow)
    (input : Record) (entryId : Option String) (world : σ) :
    ∃ last, History h f (Context.start f input) (calls config h cancelled f input entryId world)
      last := by
  by_cases hbegun : ∃ first, entry f config.triggerPrefix entryId = .ok first ∧
      f.findCycle? [first.id] = none
  · obtain ⟨first, he, hc⟩ := hbegun
    obtain ⟨s, outcome, p, hs, hstop, -, hcalls⟩ :=
      runWith_stops config h cancelled f input entryId world he hc
    exact ⟨p.context, hcalls ▸ history_of_stop hs hstop⟩
  · refine ⟨Context.start f input, ?_⟩
    rw [calls_of_not_begun fun first he hc => hbegun ⟨first, he, hc⟩]
    exact .start

/-- The result of a run holds the state that the history of its calls ends in, and its steps are the
calls that completed. -/
theorem history_of_result {r : RunResult}
    (hr : (runWith config h cancelled f input entryId world).result = .ok r) :
    ∃ last, History h f (Context.start f input) (calls config h cancelled f input entryId world) last ∧
      r.scope = last.scope ∧ r.output = last.output ∧ r.outbound = last.outbound ∧
      r.steps = ((calls config h cancelled f input entryId world).filter Call.completes).map
        Call.step := by
  obtain ⟨first, p, he, hc, -, -⟩ := traverse_of_runWith_ok hr
  obtain ⟨s, outcome, p, hs, hstop, hres, hcalls⟩ :=
    runWith_stops config h cancelled f input entryId world he hc
  rw [hr] at hres
  cases hstop with
  | finished =>
    cases hres
    obtain ⟨hhist, hsteps⟩ := recounts_of_passes hs
    rw [hcalls]
    exact ⟨_, hhist, rfl, rfl, rfl, hsteps⟩
  | cancelled hv hc => cases hres
  | missing hv hc hn => cases hres
  | aborted hp hv hc hn hr => cases hres

end Run

end Automation
