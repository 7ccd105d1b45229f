import Automation.Proofs.Traversal.History

/-!
# What is told about a run

A run tells of itself while it goes on.  `events_transcript` says that what it has told in the end is a
faithful account: nothing at all if the run was not begun, and otherwise that it began, then of each
call of its handler in turn that the node started and how it ended, and last how the run ended.

The events are told from seven places and a run ends in four ways.  The invariant `Stand.Told` ties
what has been told to the calls made so far, so that only the last event is left to the case of the
stop.
-/

namespace Automation

variable {σ : Type}

namespace RunEvent

def completed? : RunEvent → Option String
  | nodeCompleted id => some id
  | _ => none

def failed? : RunEvent → Option (String × String)
  | nodeFailed id error => some (id, error)
  | _ => none

end RunEvent

namespace Call

def ending (c : Call) : RunEvent :=
  match c.left.1 with
  | .ok _ => .nodeCompleted c.node.id
  | .error e => .nodeFailed c.node.id (e.inNode c.node.id c.node.displayName).message

def told (c : Call) : List RunEvent := [.nodeStarted c.node.id c.node.type, c.ending]

def abandoned? (c : Call) : Option Abandoned :=
  c.failure?.map fun e =>
    ⟨c.node.id, c.node.displayName, (e.inNode c.node.id c.node.displayName).message⟩

def completedId? (c : Call) : Option String := if c.completes then some c.node.id else none

section Outcome

variable {c : Call}

theorem abandoned?_of_error {e : Failure} (he : c.left.1 = .error e) :
    c.abandoned? =
      some ⟨c.node.id, c.node.displayName, (e.inNode c.node.id c.node.displayName).message⟩ := by
  rw [abandoned?, failure?, he]
  rfl

theorem filterMap_completed?_told (c : Call) :
    c.told.filterMap RunEvent.completed? = c.completedId?.toList := by
  rcases hleft : c.left.1 with e | output <;>
    simp only [told, ending, completedId?, completes, hleft] <;> rfl

theorem filterMap_failed?_told (c : Call) :
    c.told.filterMap RunEvent.failed? =
      (c.abandoned?.map fun a => (a.nodeId, a.error)).toList := by
  rcases hleft : c.left.1 with e | output <;>
    simp only [told, ending, abandoned?, failure?, hleft] <;> rfl

end Outcome

end Call

def tellAll (calls : List Call) : List RunEvent := calls.flatMap Call.told

theorem tellAll_append (calls : List Call) (c : Call) :
    tellAll (calls ++ [c]) = tellAll calls ++ c.told := by
  rw [tellAll, List.flatMap_append, List.flatMap_singleton, tellAll]

theorem filterMap_tellAll {α : Type} {view : RunEvent → Option α} {found : Call → Option α}
    (h : ∀ c : Call, c.told.filterMap view = (found c).toList) (calls : List Call) :
    (tellAll calls).filterMap view = calls.filterMap found := by
  induction calls with
  | nil => rfl
  | cons c calls ih =>
    rw [tellAll] at ih ⊢
    rw [List.flatMap_cons, List.filterMap_append, ih, h, List.filterMap_cons]
    cases found c <;> rfl

theorem filterMap_completed?_tellAll (calls : List Call) :
    (tellAll calls).filterMap RunEvent.completed? =
      ((calls.filter Call.completes).map Call.step).map StepRecord.nodeId := by
  rw [filterMap_tellAll Call.filterMap_completed?_told, List.map_map]
  induction calls with
  | nil => rfl
  | cons c calls ih =>
    rw [List.filterMap_cons, Call.completedId?, ih]
    by_cases hc : c.completes = true
    · rw [if_pos hc, List.filter_cons_of_pos hc]
      rfl
    · rw [if_neg hc, List.filter_cons_of_neg hc]

theorem filterMap_failed?_tellAll (calls : List Call) :
    (tellAll calls).filterMap RunEvent.failed? =
      (calls.filterMap Call.abandoned?).map fun a => (a.nodeId, a.error) := by
  rw [filterMap_tellAll Call.filterMap_failed?_told, List.map_filterMap]

namespace Traversal

/-- What has been told at a stand: of the beginning of the run, and of the calls made so far.  The
failures recorded are those of the calls too. -/
structure Stand.Told (opening : RunEvent) (s : Stand (σ × List Call)) : Prop where
  events : s.progress.events = opening :: tellAll s.calls
  failures : s.progress.failures = s.calls.filterMap Call.abandoned?

namespace Stand.Told

variable {policy : FanOut} {h : Handler σ} {cancelled : σ × List Call → Bool} {f : Flow}
  {opening : RunEvent} {s s' : Stand (σ × List Call)}

theorem events_call {events : List RunEvent} {calls calls' : List Call} {c : Call}
    (he : events = opening :: tellAll calls) (hcalls : calls' = calls ++ [c]) :
    events ++ [.nodeStarted c.node.id c.node.type] ++ [c.ending] = opening :: tellAll calls' := by
  rw [hcalls, tellAll_append, he, List.append_assoc, List.cons_append]
  rfl

theorem step (hs : Step policy h.recorded cancelled f s s') (ht : s.Told opening) :
    s'.Told opening := by
  obtain ⟨hevents, hfailures⟩ := ht
  cases hs with
  | seen hv => exact ⟨hevents, hfailures⟩
  | @completed id stack visited p n output context world hv hc hn hr =>
    have hcalls : world.2 = p.world.2 ++ [⟨n, p.context, (.ok output, context)⟩] :=
      Handler.recorded_calls hr
    refine ⟨events_call hevents hcalls, ?_⟩
    show p.failures = world.2.filterMap Call.abandoned?
    rw [hcalls, List.filterMap_append]
    exact hfailures.trans (List.append_nil _).symm
  | @abandoned id stack visited p n e context world hp hv hc hn hr =>
    have hcalls : world.2 = p.world.2 ++ [⟨n, p.context, (.error e, context)⟩] :=
      Handler.recorded_calls hr
    refine ⟨events_call hevents hcalls, ?_⟩
    show p.failures ++ [_] = world.2.filterMap Call.abandoned?
    rw [hcalls, List.filterMap_append]
    exact congrArg (· ++ [_]) hfailures

theorem events_of_stop {outcome : Except Failure Unit} {p : Progress (σ × List Call)}
    (hs : Stop policy h.recorded cancelled f s outcome p) (ht : s.Told opening) :
    p.events = opening :: tellAll p.world.2 := by
  obtain ⟨hevents, -⟩ := ht
  cases hs with
  | finished => exact hevents
  | cancelled hv hc => exact hevents
  | missing hv hc hn => exact hevents
  | aborted hp hv hc hn hr => exact events_call hevents (Handler.recorded_calls hr)

end Stand.Told

/-- A stop that fails in a node ends with the call of that node. -/
theorem calls_of_stop_inNode {policy : FanOut} {h : Handler σ} {cancelled : σ × List Call → Bool}
    {f : Flow} {s : Stand (σ × List Call)} {p : Progress (σ × List Call)} {id label : String}
    {cause : Failure}
    (hs : Stop policy h.recorded cancelled f s (.error (.inNode id label cause)) p) :
    ∃ c, p.world.2 = s.calls ++ [c] ∧ c.ending = .nodeFailed id (cause.inNode id label).message := by
  cases hs with
  | aborted hp hv hc hn hr => exact ⟨_, Handler.recorded_calls hr, rfl⟩

end Traversal

namespace Run

open Traversal

/-- Whether a run is begun at a node: that is its entry, and no cycle is reached from there. -/
def Begins (config : EngineConfig) (f : Flow) (entryId : Option String) (first : Node) : Prop :=
  entry f config.triggerPrefix entryId = .ok first ∧ f.findCycle? [first.id] = none

/-- Why a run is not begun: there is no such node, no trigger, or a cycle. -/
inductive Refusal (entryId : Option String) : Failure → Prop
  | unknown {id : String} (hid : entryId = some id) : Refusal entryId (.nodeNotFound id)
  | noTrigger (hid : entryId = none) : Refusal entryId .noTrigger
  | cyclic {id : String} : Refusal entryId (.cycle id)

/-- The last event of a run, by its result and how many nodes have completed. -/
def closing (f : Flow) (completed : Nat) : Except Failure RunResult → RunEvent
  | .ok _ => .runCompleted f.id completed
  | .error e => .runFailed f.id e.message

/-- What is told about a run that has begun at a node. -/
structure Transcript (f : Flow) (first : Node) (calls : List Call) (report : RunReport σ) : Prop where
  events : report.events = .runStarted f.id first.id :: tellAll calls ++
    [closing f (report.events.filterMap RunEvent.completed?).length report.result]
  steps : ∀ r, report.result = .ok r →
    report.events.filterMap RunEvent.completed? = r.steps.map StepRecord.nodeId
  failures : ∀ r, report.result = .ok r →
    report.events.filterMap RunEvent.failed? = r.failures.map fun a => (a.nodeId, a.error)
  aborted : ∀ id label cause, report.result = .error (.inNode id label cause) →
    ∃ earlier, report.events = earlier ++ [.nodeFailed id (cause.inNode id label).message,
      .runFailed f.id (cause.inNode id label).message]

variable {config : EngineConfig} {h : Handler σ} {cancelled : σ → Bool} {f : Flow} {input : Record}
  {entryId : Option String} {world : σ}

variable (h cancelled input world) in
/-- A run that is not begun tells nothing, and fails for a reason that is known before it. -/
theorem refusal_of_not_begun (hnot : ∀ first, ¬Begins config f entryId first) :
    ∃ e, runWith config h cancelled f input entryId world = ⟨.error e, [], world⟩ ∧
      Refusal entryId e := by
  rw [runWith]
  cases he : entry f config.triggerPrefix entryId with
  | ok first =>
    cases hc : f.findCycle? [first.id] with
    | none => exact absurd ⟨he, hc⟩ (hnot first)
    | some id =>
      simp only [hc]
      exact ⟨_, rfl, .cyclic⟩
  | error e =>
    refine ⟨e, rfl, ?_⟩
    cases entryId with
    | some id =>
      cases hn : f.node? id with
      | some n => simp [entry, hn] at he
      | none =>
        simp only [entry, hn, Except.error.injEq] at he
        exact he ▸ .unknown rfl
    | none =>
      cases hn : f.trigger? config.triggerPrefix with
      | some n => simp [entry, hn] at he
      | none =>
        simp only [entry, hn, Except.error.injEq] at he
        exact he ▸ .noTrigger rfl

variable {first : Node} {s : Stand (σ × List Call)}

theorem told_of_passes (hb : Begins config f entryId first)
    (hs : Passes config h cancelled f input entryId world s) :
    s.Told (.runStarted f.id first.id) := by
  refine hs.keeps (fun first' he => ?_) Stand.Told.step
  obtain rfl : first' = first := Except.ok.inj (he.symm.trans hb.1)
  exact ⟨rfl, rfl⟩

theorem events_of_stop {outcome : Except Failure Unit} {p : Progress (σ × List Call)}
    (hb : Begins config f entryId first)
    (hs : Passes config h cancelled f input entryId world s)
    (hstop : Stop config.fanOut h.recorded (fun w => cancelled w.1) f s outcome p) :
    (runWith config h cancelled f input entryId world).events =
      .runStarted f.id first.id :: tellAll p.world.2 ++
        [closing f p.steps.length (outcome.map fun () => resultOf p)] := by
  have htold := (told_of_passes hb hs).events_of_stop hstop
  obtain ⟨first', he, hc, hsteps⟩ := hs
  rw [← htold, runWith_recorded, runWith_of_entry he hc,
    traverse_of_steps hsteps, traverse_of_stop hstop]
  cases outcome <;> rfl

theorem filterMap_of_events {α : Type} (view : RunEvent → Option α) {told : List RunEvent}
    {opening last : RunEvent} {calls : List Call} (he : told = opening :: tellAll calls ++ [last])
    (hopening : view opening = none) (hlast : view last = none) :
    told.filterMap view = (tellAll calls).filterMap view := by
  rw [he, List.cons_append, List.filterMap_cons_none hopening, List.filterMap_append,
    List.filterMap_cons_none hlast, List.filterMap_nil, List.append_nil]

theorem transcript_of_begins (hb : Begins config f entryId first) :
    Transcript f first (calls config h cancelled f input entryId world)
      (runWith config h cancelled f input entryId world) := by
  obtain ⟨s, outcome, p, hs, hstop, hresult, hcalls⟩ :=
    runWith_stops config h cancelled f input entryId world hb.1 hb.2
  have hevents := events_of_stop hb hs hstop
  have hrecounts := recounts_of_passes hs
  have htold := told_of_passes hb hs
  -- The recounted steps and failures matter to a result alone, and there is one only where the stack
  -- is empty.
  cases outcome with
  | ok _ =>
    have hok : (runWith config h cancelled f input entryId world).result = .ok (resultOf p) := hresult
    cases hstop with
    | @finished visited p =>
      have hsteps := filterMap_of_events RunEvent.completed? hevents rfl rfl
      have hfailures := filterMap_of_events RunEvent.failed? hevents rfl rfl
      have hp : p.steps = (p.world.2.filter Call.completes).map Call.step := hrecounts.steps
      have hp' : p.failures = p.world.2.filterMap Call.abandoned? := htold.failures
      rw [filterMap_completed?_tellAll, ← hp] at hsteps
      rw [filterMap_failed?_tellAll, ← hp'] at hfailures
      constructor
      · rw [hok, hcalls, hsteps, List.length_map]
        exact hevents
      · intro r hr
        rw [hok, Except.ok.injEq] at hr
        rw [← hr]
        exact hsteps
      · intro r hr
        rw [hok, Except.ok.injEq] at hr
        rw [← hr]
        exact hfailures
      · intro id label cause hr
        rw [hok] at hr
        cases hr
  | error e =>
    have herror : (runWith config h cancelled f input entryId world).result = .error e := hresult
    constructor
    · rw [herror, hcalls]
      exact hevents
    · intro r hr
      rw [herror] at hr
      cases hr
    · intro r hr
      rw [herror] at hr
      cases hr
    · intro id label cause hr
      rw [herror, Except.error.injEq] at hr
      subst hr
      obtain ⟨c, hlast, hending⟩ := calls_of_stop_inNode hstop
      rw [hlast, tellAll_append, Call.told, hending] at hevents
      -- What was told earlier ends with the start of the last call.
      refine ⟨.runStarted f.id first.id :: tellAll s.calls ++ [.nodeStarted c.node.id c.node.type], ?_⟩
      rw [hevents]
      simp only [List.cons_append, List.append_assoc, List.nil_append]
      rfl

/-- A run tells nothing exactly if it is not begun, and then it fails for want of an entry or because
of a cycle.  One that begins at a node tells so, then of each of its calls that the node started and
how it ended, and last how the run ended: with so many nodes completed if it has a result, which lists
the nodes told to have completed and those told to have failed, and otherwise with its failure, which
has just been told of a node where it is that of a node. -/
theorem events_transcript (config : EngineConfig) (h : Handler σ) (cancelled : σ → Bool) (f : Flow)
    (input : Record) (entryId : Option String) (world : σ) :
    let report := runWith config h cancelled f input entryId world
    (report.events = [] ↔ ∀ first, ¬Begins config f entryId first) ∧
      (report.events = [] → ∃ e, report.result = .error e ∧ Refusal entryId e) ∧
      ∀ first, Begins config f entryId first →
        Transcript f first (calls config h cancelled f input entryId world) report := by
  have htold : ∀ first, Begins config f entryId first →
      (runWith config h cancelled f input entryId world).events ≠ [] := by
    intro first hb hnil
    rw [(transcript_of_begins hb).events] at hnil
    cases hnil
  refine ⟨⟨fun hnil first hb => htold first hb hnil, fun hnot => ?_⟩, fun hnil => ?_,
    fun first hb => transcript_of_begins hb⟩
  · obtain ⟨e, hreport, -⟩ := refusal_of_not_begun h cancelled input world hnot
    rw [hreport]
  · obtain ⟨e, hreport, hrefusal⟩ := refusal_of_not_begun h cancelled input world
      fun first hb => htold first hb hnil
    exact ⟨e, by rw [hreport], hrefusal⟩

end Run

end Automation
