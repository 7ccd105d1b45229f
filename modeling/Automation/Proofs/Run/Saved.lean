import Automation.Proofs.Store.History
import Automation.Proofs.Traversal.Calls

/-!
# Running what was saved

A flow that has been saved is read back with an id and moments of its own, and with everything else as
it was.  `execute_saved` says that this is all the same to a run: the flow that is read back runs as
the flow that was saved, to the same result and in the same world, and the same is told about it but
for the id of the flow.

A run looks at the nodes, the edges and the variables of a flow (`Flow.Alike`) and does nothing with
its id but tell it.  What has been told is seen by no node, so a traversal that is told about under
another id is the same traversal (`traverse_renamed`).
-/

namespace Automation

structure Flow.Alike (f g : Flow) : Prop where
  nodes : g.nodes = f.nodes
  edges : g.edges = f.edges
  declarations : g.declarations = f.declarations

/-- What is told about a run, told about the run of a flow with another id. -/
def RunEvent.renamed (flowId : String) : RunEvent → RunEvent
  | runStarted _ entry => runStarted flowId entry
  | runCompleted _ steps => runCompleted flowId steps
  | runFailed _ error => runFailed flowId error
  | e => e

def Progress.renamed {σ : Type} (flowId : String) (p : Progress σ) : Progress σ :=
  { p with events := p.events.map (RunEvent.renamed flowId) }

def RunReport.renamed {σ : Type} (flowId : String) (r : RunReport σ) : RunReport σ :=
  { r with events := r.events.map (RunEvent.renamed flowId) }

section Runs

variable {σ : Type} {policy : FanOut} {h : Handler σ} {cancelled : σ → Bool} {f g : Flow}
  (flowId : String)

theorem Progress.renamed_tell (p : Progress σ) (e : RunEvent) :
    (p.tell e).renamed flowId = (p.renamed flowId).tell (e.renamed flowId) := by
  rw [renamed, tell, List.map_append]
  rfl

namespace Traversal

theorem visit_renamed (n : Node) (p : Progress σ) :
    visit policy h n (p.renamed flowId) =
      ((visit policy h n p).1, (visit policy h n p).2.renamed flowId) := by
  rcases hr : h n p.context p.world with ⟨⟨e | output, context⟩, world⟩
  · have hr' : h n (p.renamed flowId).context (p.renamed flowId).world = _ := hr
    rw [visit_of_error hr, visit_of_error hr']
    cases policy <;> simp [Progress.renamed, Progress.failed, Progress.ran, Progress.abandon,
      Progress.tell, RunEvent.renamed]
  · have hr' : h n (p.renamed flowId).context (p.renamed flowId).world = _ := hr
    rw [visit_of_ok hr, visit_of_ok hr']
    simp [Progress.renamed, Progress.complete, Progress.ran, Progress.tell, RunEvent.renamed]

theorem traverse_renamed (halike : f.Alike g) (stack visited : List String) (p : Progress σ) :
    traverse policy h cancelled g stack visited (p.renamed flowId) =
      ((traverse policy h cancelled f stack visited p).1,
        (traverse policy h cancelled f stack visited p).2.renamed flowId) :=
  traverse_image (Progress.renamed flowId) halike.nodes halike.edges (fun _ => rfl)
    (visit_renamed flowId) stack visited p

end Traversal

namespace Run

/-- Flows that are alike run alike: only the id that is told is another. -/
theorem runWith_alike (halike : f.Alike g) (config : EngineConfig) (h : Handler σ)
    (cancelled : σ → Bool) (input : Record) (entryId : Option String) (world : σ) :
    runWith config h cancelled g input entryId world =
      (runWith config h cancelled f input entryId world).renamed g.id := by
  have hentry : entry g config.triggerPrefix entryId = entry f config.triggerPrefix entryId := by
    cases entryId <;> simp only [entry, Flow.node?, Flow.trigger?, halike.nodes]
  have hcycle : ∀ roots, g.findCycle? roots = f.findCycle? roots := fun roots => by
    rw [Flow.findCycle?, Flow.findCycle?, halike.edges]
  cases he : entry f config.triggerPrefix entryId with
  | error e =>
    rw [runWith, runWith, hentry, he]
    rfl
  | ok first =>
    cases hc : f.findCycle? [first.id] with
    | some id =>
      rw [runWith, runWith, hentry, he]
      simp only [hcycle, hc]
      rfl
    | none =>
      -- Both runs begin alike but for the id, so one traversal is the other one renamed.
      have hbegun : begun g input first world = (begun f input first world).renamed g.id := by
        rw [begun, begun, Context.start, Context.start, Context.declared, Context.declared,
          halike.declarations]
        rfl
      rw [runWith_of_entry (hentry.trans he) ((hcycle _).trans hc), runWith_of_entry he hc, hbegun,
        Traversal.traverse_renamed g.id halike]
      rcases Traversal.traverse config.fanOut h cancelled f [first.id] []
        (begun f input first world) with ⟨e | _, p⟩
      · have htell := p.renamed_tell g.id (.runFailed f.id e.message)
        exact congrArg (fun q => RunReport.mk (.error e) q.events q.world) htell.symm
      · have htell := p.renamed_tell g.id (.runCompleted f.id p.steps.length)
        exact congrArg (fun q => RunReport.mk (.ok (resultOf p)) q.events q.world) htell.symm

end Run

end Runs

namespace Store

variable {triggerPrefix : String} {s s' : Store} {stamp : Stamp} {f g : Flow}

/-- A flow that has just been saved is read back alike, whatever was saved before. -/
theorem exists_flow_of_saveFlow (hsave : saveFlow triggerPrefix stamp f s = .ok (g, s'))
    (hf : f.Legible) : ∃ loaded, s'.flow g.id = .ok loaded ∧ loaded.id = g.id ∧ f.Alike loaded := by
  obtain ⟨created, updated, hflow⟩ := flow_of_saveFlow hsave hf
  obtain ⟨rfl, -⟩ := eq_of_saveFlow hsave
  exact ⟨_, hflow, rfl, rfl, rfl, rfl⟩

end Store

namespace Run

/-- A flow that is saved is read back as a flow that runs as it does, whatever the services, the world,
the input and the entry.  It leads to the same result in the same world, and is told about under the
id that it has been saved under. -/
theorem execute_saved {triggerPrefix : String} {s s' : Store} {stamp : Stamp} {f g : Flow}
    (hsave : Store.saveFlow triggerPrefix stamp f s = .ok (g, s')) (hf : f.Legible) :
    ∃ loaded, s'.flow g.id = .ok loaded ∧
      ∀ {σ : Type} (services : Services) (w : World σ) (input : Record) (entryId : Option String)
        (world : σ),
        let original := execute services w f input entryId world
        let again := execute services w loaded input entryId world
        again.result = original.result ∧ again.world = original.world ∧
          again.events = original.events.map (RunEvent.renamed g.id) := by
  obtain ⟨loaded, hloaded, hid, halike⟩ := Store.exists_flow_of_saveFlow hsave hf
  refine ⟨loaded, hloaded, fun services w input entryId world => ?_⟩
  have hrun := runWith_alike halike services.config.engine (Node.run services w) w.cancelled input
    entryId world
  rw [hid] at hrun
  simp only [execute, hrun]
  exact ⟨rfl, rfl, rfl⟩

def moodFlow : Flow :=
  { Flow.new "mood" with
    nodes := [.new "start" "trigger_mood",
      (Node.new "good" "condition").configure "conditions" (.array [.object [("field", .string "mood"),
        ("operator", .string "eq"), ("value", .string "good")]]),
      (Node.new "praise" "send_message").configure "message" (.string "Great"),
      (Node.new "comfort" "send_message").configure "message" (.string "Oh")]
    edges := [.new "start" "good", .fromHandle "good" "true" "praise",
      .fromHandle "good" "false" "comfort"] }

theorem ordered_text (key text : String) : (Value.object [(key, .string text)]).Ordered :=
  .object (List.pairwise_singleton ..) fun m hm => by
    rw [List.mem_singleton.1 hm]
    exact .string text

theorem legible_mood : moodFlow.Legible where
  nodes n hn := by
    have hrule : (Value.object [("field", .string "mood"), ("operator", .string "eq"),
        ("value", .string "good")]).Ordered := by
      refine .object (by decide) fun m hm => ?_
      simp only [List.mem_cons, List.not_mem_nil, or_false] at hm
      rcases hm with rfl | rfl | rfl <;> exact .string _
    simp only [moodFlow, List.mem_cons, List.not_mem_nil, or_false] at hn
    rcases hn with rfl | rfl | rfl | rfl
    · exact ⟨⟨rfl, rfl⟩, .object .nil fun m hm => by cases hm⟩
    · refine ⟨⟨rfl, rfl⟩, .object (List.pairwise_singleton ..) fun m hm => ?_⟩
      rw [List.mem_singleton.1 hm]
      exact .array fun v hv => List.mem_singleton.1 hv ▸ hrule
    · exact ⟨⟨rfl, rfl⟩, ordered_text "message" "Great"⟩
    · exact ⟨⟨rfl, rfl⟩, ordered_text "message" "Oh"⟩
  declarations v hv := by cases hv
  nodes_nesting := by decide
  declarations_nesting := by decide

def stillWorld : World Unit where
  cancelled _ := false
  wait _ s := (.done (), s)
  chat _ _ s := (.cancelled, s)
  query _ _ s := (.error .cancelled, s)
  request _ s := (.cancelled, s)

theorem execute_saved_mood :
    let stamp : Stamp := ⟨⟨0, 0⟩, "fresh"⟩
    ∃ s' loaded r,
      Store.saveFlow "trigger_" stamp moodFlow .empty = .ok (Store.stampFlow stamp moodFlow, s') ∧
      s'.flow "fresh" = .ok loaded ∧
      (execute bareServices stillWorld loaded [("mood", .string "low")] none ()).result = .ok r ∧
      r.steps.map StepRecord.nodeId = ["start", "good", "comfort"] := by
  intro stamp
  have hvalid : (moodFlow.validate "trigger_").isValid = true := by decide +kernel
  obtain ⟨s', hsave⟩ := Store.exists_saveFlow (s := .empty) hvalid stamp
  obtain ⟨loaded, hloaded, hrun⟩ := execute_saved hsave legible_mood
  let first : Node := .new "start" "trigger_mood"
  have he : entry moodFlow bareServices.config.engine.triggerPrefix none = .ok first := rfl
  have hc : moodFlow.findCycle? [first.id] = none := by decide +kernel
  obtain ⟨p, hr, hsteps⟩ : ∃ p,
      (execute bareServices stillWorld moodFlow [("mood", .string "low")] none ()).result =
        .ok (resultOf p) ∧
      p.steps.map StepRecord.nodeId = ["start", "good", "comfort"] :=
    exists_result_of_within 4 4 he hc (by decide +kernel)
  exact ⟨s', loaded, resultOf p, hsave, hloaded, (hrun bareServices stillWorld _ none ()).1.trans hr,
    hsteps⟩

end Run

end Automation
