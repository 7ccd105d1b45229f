import Automation.Proofs.Traversal.Transcript

/-!
# The two policies on failures

A run whose siblings go on after a failure and a run that ends with the first one are the same run as
long as no node fails (`runWith_under`).  `execute_under` says what follows for their results: if one
of them ends well without a failure they are the same, and otherwise the run that ends early ends with
the failure that the other records first, and has called what the other had called by then.

The policy is looked at when a node has failed and nowhere else.  So a step of a run that ends with the
first failure is a step under either policy, and the stop of such a run is one under either policy too
unless it is the failure of a node, where the other run takes one more step from the same stand.
-/

namespace Automation

variable {σ : Type}

def EngineConfig.under (c : EngineConfig) (policy : FanOut) : EngineConfig :=
  { c with fanOut := policy }

def Services.under (s : Services) (policy : FanOut) : Services :=
  { s with config := { s.config with engine := s.config.engine.under policy } }

theorem Node.run_under (s : Services) (policy : FanOut) (w : World σ) :
    Node.run (s.under policy) w = Node.run s w := rfl

namespace Traversal

section Lockstep

variable {policy : FanOut} {h : Handler σ} {cancelled : σ × List Call → Bool} {f : Flow}
  {s s' : Stand (σ × List Call)}

/-- A step of a run that ends with the first failure is a step under either policy. -/
theorem Step.under {k : Handler σ} {stopped : σ → Bool} {t t' : Stand σ}
    (hs : Step .abortAll k stopped f t t') : Step policy k stopped f t t' := by
  cases hs with
  | seen hv => exact .seen hv
  | completed hv hc hn hr => exact .completed hv hc hn hr
  | abandoned hp hv hc hn hr => cases hp

theorem Steps.under (hs : Steps .abortAll h.recorded cancelled f s s') :
    Steps policy h.recorded cancelled f s s' :=
  Relation.ReflTransGen.mono (fun _ _ hstep => Step.under hstep) _ _ hs

structure Stand.Spotless (s : Stand (σ × List Call)) : Prop where
  failures : s.progress.failures = []
  calls : ∀ c ∈ s.calls, c.completes = true

/-- A run that ends with the first failure goes on only as long as no node fails. -/
theorem Stand.Spotless.step (hs : Step .abortAll h.recorded cancelled f s s') (hno : s.Spotless) :
    s'.Spotless := by
  obtain ⟨hfailures, hcalls⟩ := hno
  cases hs with
  | seen hv => exact ⟨hfailures, hcalls⟩
  | @completed id stack visited p n output context world hv hc hn hr =>
    refine ⟨hfailures, fun c hmem => ?_⟩
    have hmem' : c ∈ world.2 := hmem
    rw [Handler.recorded_calls hr, List.mem_append] at hmem'
    rcases hmem' with hmem | hmem
    · exact hcalls c hmem
    · rw [List.mem_singleton.mp hmem]
      rfl
  | abandoned hp hv hc hn hr => cases hp

theorem failures_prefix_of_step (hs : Step policy h.recorded cancelled f s s') :
    s.progress.failures <+: s'.progress.failures := by
  cases hs with
  | seen hv => exact List.prefix_rfl
  | completed hv hc hn hr => exact List.prefix_rfl
  | abandoned hp hv hc hn hr => exact List.prefix_append ..

/-- Where a run that ends with the first failure stops, a run whose siblings go on stops too, or a
node fails and the latter takes a step that records it. -/
theorem Stop.under {outcome : Except Failure Unit} {p : Progress (σ × List Call)}
    (hs : Stop .abortAll h.recorded cancelled f s outcome p) :
    Stop .continueSiblings h.recorded cancelled f s outcome p ∨
      ∃ c e s', c.left.1 = .error e ∧ outcome = .error (e.inNode c.node.id c.node.displayName) ∧
        p.world.2 = s.calls ++ [c] ∧ Step .continueSiblings h.recorded cancelled f s s' ∧
        s'.calls = p.world.2 ∧
        s'.progress.failures = s.progress.failures ++ c.abandoned?.toList := by
  cases hs with
  | finished => exact Or.inl .finished
  | cancelled hv hc => exact Or.inl (.cancelled hv hc)
  | missing hv hc hn => exact Or.inl (.missing hv hc hn)
  | aborted hp hv hc hn hr =>
    exact Or.inr ⟨_, _, _, rfl, rfl, Handler.recorded_calls hr, .abandoned rfl hv hc hn hr, rfl, rfl⟩

end Lockstep

end Traversal

namespace Run

open Traversal

variable {config : EngineConfig} {h : Handler σ} {cancelled : σ → Bool} {f : Flow} {input : Record}
  {entryId : Option String} {world : σ}

/-- The failures recorded at a stand are the first of those of the result. -/
theorem failures_prefix_of_result {s : Stand (σ × List Call)} {r : RunResult}
    (hs : Passes config h cancelled f input entryId world s)
    (hr : (runWith config h cancelled f input entryId world).result = .ok r) :
    s.progress.failures <+: r.failures := by
  obtain ⟨s', hsteps, hstop⟩ := @traverse_stops _ config.fanOut h.recorded
    (fun w => cancelled w.1) f s.stack s.visited s.progress
  have hkept : s.progress.failures <+: s'.progress.failures :=
    Stand.keeps (P := fun s' => s.progress.failures <+: s'.progress.failures)
      (fun hstep hpre => hpre.trans (failures_prefix_of_step hstep)) hsteps List.prefix_rfl
  rcases ht : traverse config.fanOut h.recorded (fun w => cancelled w.1) f s.stack s.visited
    s.progress with ⟨outcome, p⟩
  have hresult := (runWith_of_passes hs ht).1
  rw [ht] at hstop
  rw [hr] at hresult
  cases hstop with
  | finished =>
    rw [Except.ok.inj hresult]
    exact hkept
  | cancelled hv hc => cases hresult
  | missing hv hc hn => cases hresult
  | aborted hp hv hc hn hr => cases hresult

theorem runWith_under_of_not_begun (hnot : ∀ first, ¬Begins config f entryId first)
    (policy : FanOut) :
    runWith (config.under policy) h cancelled f input entryId world =
      runWith config h cancelled f input entryId world := by
  rw [runWith, runWith, show (config.under policy).triggerPrefix = config.triggerPrefix from rfl]
  cases he : entry f config.triggerPrefix entryId with
  | error e => rfl
  | ok first =>
    cases hc : f.findCycle? [first.id] with
    | none => exact absurd ⟨he, hc⟩ (hnot first)
    | some id => simp only [hc]

/-- How the runs under the two policies part: a call fails after others that have completed.  The run
that ends with the first failure has made these calls and ends with it.  The other begins with these
calls and, if it has a result, records this failure first. -/
structure Parting (config : EngineConfig) (h : Handler σ) (cancelled : σ → Bool) (f : Flow)
    (input : Record) (entryId : Option String) (world : σ) (done : List Call) (c : Call)
    (e : Failure) : Prop where
  completes : ∀ d ∈ done, d.completes = true
  fails : c.left.1 = .error e
  ends : (runWith (config.under .abortAll) h cancelled f input entryId world).result =
    .error (e.inNode c.node.id c.node.displayName)
  calls : calls (config.under .abortAll) h cancelled f input entryId world = done ++ [c]
  calls_prefix : done ++ [c] <+:
    Run.calls (config.under .continueSiblings) h cancelled f input entryId world
  failures : ∀ r, (runWith (config.under .continueSiblings) h cancelled f input entryId world).result =
    .ok r → c.abandoned?.toList <+: r.failures

/-- The runs under the two policies are the same and no node fails in them, or a node fails in both
and they part there. -/
theorem runWith_under (config : EngineConfig) (h : Handler σ) (cancelled : σ → Bool) (f : Flow)
    (input : Record) (entryId : Option String) (world : σ) :
    (runWith (config.under .abortAll) h cancelled f input entryId world =
        runWith (config.under .continueSiblings) h cancelled f input entryId world ∧
      ∀ r, (runWith (config.under .abortAll) h cancelled f input entryId world).result = .ok r →
        r.failures = []) ∨
    ∃ done c e, Parting config h cancelled f input entryId world done c e := by
  by_cases hbegun : ∃ first, Begins config f entryId first
  · obtain ⟨first, he, hc⟩ := hbegun
    obtain ⟨s, outcome, p, hs, hstop, hresult, hcalls⟩ :=
      runWith_stops (config.under .abortAll) h cancelled f input entryId world he hc
    have hspotless : s.Spotless :=
      hs.keeps (fun _ _ => ⟨rfl, fun c hmem => absurd hmem List.not_mem_nil⟩) Stand.Spotless.step
    obtain ⟨first', he', hc', hsteps⟩ := hs
    have hs' : Passes (config.under .continueSiblings) h cancelled f input entryId world s :=
      ⟨first', he', hc', Steps.under hsteps⟩
    -- Up to here the runs are the same.  Either they stop here together, or a node fails.
    rcases hstop.under with hsame | ⟨c, e, s', hleft, rfl, hlast, hstep, hcalls', hfailures⟩
    · -- They stop together.
      left
      have ht : traverse (config.under .abortAll).fanOut h.recorded (fun w => cancelled w.1) f
          [first.id] [] (begun f input first (world, [])) =
          traverse (config.under .continueSiblings).fanOut h.recorded (fun w => cancelled w.1) f
            [first.id] [] (begun f input first (world, [])) := by
        obtain rfl : first' = first := Except.ok.inj (he'.symm.trans he)
        exact (traverse_of_steps hsteps |>.trans (traverse_of_stop hstop)).trans
          (traverse_of_steps (Steps.under hsteps) |>.trans (traverse_of_stop hsame)).symm
      refine ⟨?_, fun r hr => ?_⟩
      · rw [runWith_recorded, runWith_recorded (config.under .continueSiblings),
          runWith_of_entry (show entry f (config.under .abortAll).triggerPrefix entryId = _ from he) hc,
          runWith_of_entry
            (show entry f (config.under .continueSiblings).triggerPrefix entryId = _ from he) hc, ht]
      · rw [hresult] at hr
        cases hstop with
        | finished =>
          rw [← Except.ok.inj hr]
          exact hspotless.failures
        | cancelled hv hc => cases hr
        | missing hv hc hn => cases hr
        | aborted hp hv hc hn hr' => cases hr
    · -- A node fails, and the run whose siblings go on takes one more step.
      right
      have hs'' : Passes (config.under .continueSiblings) h cancelled f input entryId world s' :=
        ⟨first', he', hc', (Steps.under hsteps).tail hstep⟩
      refine ⟨s.calls, c, e, ?_⟩
      exact
        { completes := hspotless.calls
          fails := hleft
          ends := hresult
          calls := hcalls.trans hlast
          calls_prefix := by
            rw [← hlast, ← hcalls']
            exact hs''.calls_prefix
          failures := fun r hr => by
            have hpre := failures_prefix_of_result hs'' hr
            rw [hfailures, hspotless.failures] at hpre
            exact hpre }
  · have hnot : ∀ first, ¬Begins config f entryId first := fun first hb => hbegun ⟨first, hb⟩
    left
    rw [runWith_under_of_not_begun hnot, runWith_under_of_not_begun hnot]
    obtain ⟨e, hreport, -⟩ := refusal_of_not_begun h cancelled input world hnot
    rw [hreport]
    exact ⟨rfl, fun r hr => by cases hr⟩

/-- If a run that ends with the first failure ends well, then so does a run whose siblings go on after
a failure, with the same result, and no node has failed.  If the latter ends well and no node has
failed, the former is the same run.  And if the latter ends well with some failures, then the former
ends with the first of them: it has called the same nodes up to the one that fails, which is its
last. -/
theorem execute_under (s : Services) (w : World σ) (f : Flow) (input : Record)
    (entryId : Option String) (world : σ) :
    let ending := execute (s.under .abortAll) w f input entryId world
    let goingOn := execute (s.under .continueSiblings) w f input entryId world
    (∀ r, ending.result = .ok r → goingOn = ending ∧ r.failures = []) ∧
      (∀ r, goingOn.result = .ok r → r.failures = [] → ending = goingOn) ∧
      ∀ r a later, goingOn.result = .ok r → r.failures = a :: later →
        (∃ cause, ending.result = .error (.inNode a.nodeId a.label cause) ∧
          a.error = (cause.inNode a.nodeId a.label).message) ∧
        ∃ done c, c.node.id = a.nodeId ∧ c.completes = false ∧ (∀ d ∈ done, d.completes = true) ∧
          calls (s.under .abortAll).config.engine (Node.run (s.under .abortAll) w) w.cancelled f
            input entryId world = done ++ [c] ∧
          done ++ [c] <+: calls (s.under .continueSiblings).config.engine
            (Node.run (s.under .continueSiblings) w) w.cancelled f input entryId world := by
  simp only [execute, Node.run_under]
  rcases runWith_under s.config.engine (Node.run s w) w.cancelled f input entryId world with
    ⟨hsame, hnone⟩ | ⟨done, c, e, hpart⟩
  · refine ⟨fun r hr => ⟨hsame.symm, hnone r hr⟩, fun r hr hno => hsame, fun r a later hr hfail => ?_⟩
    have hr' := hsame.symm ▸ hr
    rw [hnone r hr'] at hfail
    cases hfail
  · have hfirst : c.abandoned? = some
        ⟨c.node.id, c.node.displayName, (e.inNode c.node.id c.node.displayName).message⟩ :=
      Call.abandoned?_of_error hpart.fails
    refine ⟨fun r hr => ?_, fun r hr hno => ?_, fun r a later hr hfail => ?_⟩
    · have hends := hpart.ends.symm.trans hr
      cases hends
    · have hpre := hpart.failures r hr
      rw [hfirst, hno] at hpre
      simp at hpre
    · have hpre := hpart.failures r hr
      rw [hfirst, hfail, Option.toList_some, List.cons_prefix_cons] at hpre
      obtain ⟨rfl, -⟩ := hpre
      have hfails : c.completes = false := by rw [Call.completes, hpart.fails]; rfl
      exact ⟨⟨e, hpart.ends, rfl⟩, done, c, rfl, hfails, hpart.completes, hpart.calls,
        hpart.calls_prefix⟩

end Run

end Automation
