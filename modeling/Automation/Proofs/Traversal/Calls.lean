import Automation.Proofs.Traversal.Step
import Automation.Run.Engine

/-!
# The calls of a run

A result tells which nodes have completed and which have failed.  What each of them gave is known to
its handler alone, so a statement about outputs needs the calls of the handler.  `Handler.recorded`
is the same handler with a list of its calls kept beside the world, and `Run.calls` is that list
after a run.

Keeping it changes nothing.  More generally, a run sees of the world only what its handler and the
test for cancellation make of it: if one world is an image of another and the handler acts on both
alike, then the run on the first is the image of the run on the second (`runWith_mapWorld`).  The step
from each visit to a whole traversal is the same for any image of progress (`traverse_image`).
-/

namespace Automation

variable {σ τ : Type}

/-! ## Images of progress -/

/-- If each visit of an image is the image of a visit, then a traversal of an image is the image of the
traversal.  The two may go through different flows, as long as these have the same nodes and edges. -/
theorem Traversal.traverse_image {policy : FanOut} {h : Handler σ} {k : Handler τ}
    {cancelled : σ → Bool} {cancelled' : τ → Bool} {f f' : Flow} (image : Progress τ → Progress σ)
    (hnodes : f'.nodes = f.nodes) (hedges : f'.edges = f.edges)
    (hcancelled : ∀ p, cancelled (image p).world = cancelled' p.world)
    (hvisit : ∀ n p, visit policy h n (image p) =
      ((visit policy k n p).1, image (visit policy k n p).2))
    (stack visited : List String) (p : Progress τ) :
    traverse policy h cancelled f' stack visited (image p) =
      ((traverse policy k cancelled' f stack visited p).1,
        image (traverse policy k cancelled' f stack visited p).2) := by
  have hnode : ∀ id, f'.node? id = f.node? id := fun id => by
    rw [Flow.node?, Flow.node?, hnodes]
  have hfollowed : ∀ id branch, followed f' id branch = followed f id branch := fun id branch => by
    rw [followed, followed, hedges]
  fun_induction traverse policy k cancelled' f stack visited p with
  | case1 visited p => rw [traverse]
  | case2 id stack visited p hv ih => rw [traverse, dif_pos hv, ih]
  | case3 id stack visited p hv hc =>
    rw [traverse, dif_neg hv, if_pos ((hcancelled p).trans hc)]
  | case4 id stack visited p hv hc hn =>
    rw [traverse, dif_neg hv, if_neg (hcancelled p ▸ hc), hnode, hn]
  | case5 id stack visited p hv hc n hn e p' hvisited =>
    rw [traverse, dif_neg hv, if_neg (hcancelled p ▸ hc), hnode, hn]
    simp only [hvisit, hvisited]
  | case6 id stack visited p hv hc n hn p' hvisited ih =>
    rw [traverse, dif_neg hv, if_neg (hcancelled p ▸ hc), hnode, hn]
    simp only [hvisit, hvisited, ih]
  | case7 id stack visited p hv hc n hn branch p' hvisited ih =>
    rw [traverse, dif_neg hv, if_neg (hcancelled p ▸ hc), hnode, hn]
    simp only [hvisit, hvisited, hfollowed, ih]

/-! ## Images of worlds -/

def Progress.mapWorld (g : τ → σ) (p : Progress τ) : Progress σ :=
  ⟨p.context, p.steps, p.failures, p.events, g p.world⟩

def RunReport.mapWorld (g : τ → σ) (r : RunReport τ) : RunReport σ :=
  ⟨r.result, r.events, g r.world⟩

section MapWorld

variable {policy : FanOut} {h : Handler σ} {k : Handler τ} {cancelled : σ → Bool} {g : τ → σ}
  {f : Flow}

namespace Traversal

theorem visit_mapWorld (hk : ∀ n c t, h n c (g t) = ((k n c t).1, g (k n c t).2)) (n : Node)
    (p : Progress τ) :
    visit policy h n (p.mapWorld g) = ((visit policy k n p).1, (visit policy k n p).2.mapWorld g) := by
  have hcall : h n (p.mapWorld g).context (p.mapWorld g).world =
      ((k n p.context p.world).1, g (k n p.context p.world).2) := hk n p.context p.world
  rcases hr : k n p.context p.world with ⟨⟨e | output, context⟩, world⟩
  · rw [hr] at hcall
    rw [visit_of_error hr, visit_of_error hcall]
    cases policy <;> rfl
  · rw [hr] at hcall
    rw [visit_of_ok hr, visit_of_ok hcall]
    rfl

theorem traverse_mapWorld (hk : ∀ n c t, h n c (g t) = ((k n c t).1, g (k n c t).2))
    (stack visited : List String) (p : Progress τ) :
    traverse policy h cancelled f stack visited (p.mapWorld g) =
      ((traverse policy k (fun t => cancelled (g t)) f stack visited p).1,
        (traverse policy k (fun t => cancelled (g t)) f stack visited p).2.mapWorld g) :=
  traverse_image (Progress.mapWorld g) rfl rfl (fun _ => rfl) (visit_mapWorld hk) stack visited p

end Traversal

namespace Run

theorem runWith_mapWorld (hk : ∀ n c t, h n c (g t) = ((k n c t).1, g (k n c t).2))
    (config : EngineConfig) (input : Record) (entryId : Option String) (world : τ) :
    runWith config h cancelled f input entryId (g world) =
      (runWith config k (fun t => cancelled (g t)) f input entryId world).mapWorld g := by
  cases he : entry f config.triggerPrefix entryId with
  | error e =>
    rw [runWith, runWith, he]
    rfl
  | ok first =>
    cases hc : f.findCycle? [first.id] with
    | some id =>
      rw [runWith, runWith, he]
      simp only [hc, RunReport.mapWorld]
    | none =>
      have hbegun : begun f input first (g world) = (begun f input first world).mapWorld g := rfl
      rw [runWith_of_entry he hc, runWith_of_entry he hc, hbegun, Traversal.traverse_mapWorld hk]
      rcases Traversal.traverse config.fanOut k (fun t => cancelled (g t)) f [first.id] []
        (begun f input first world) with ⟨e | _, p⟩ <;> rfl

end Run

end MapWorld

/-! ## Recording -/

/-- A call of a handler: the node, the state of the run before it, and what it left behind. -/
structure Call where
  node : Node
  before : Context
  left : Left

def Call.completes (c : Call) : Bool := c.left.1.isOk

/-- A handler that keeps its calls beside the world, in order. -/
def Handler.recorded (h : Handler σ) : Handler (σ × List Call) := fun n context w =>
  let (left, world) := h n context w.1
  (left, world, w.2 ++ [⟨n, context, left⟩])

theorem Handler.recorded_calls {h : Handler σ} {n : Node} {context : Context} {left : Left}
    {w w' : σ × List Call} (hr : h.recorded n context w = (left, w')) :
    w'.2 = w.2 ++ [⟨n, context, left⟩] := by
  cases hr
  rfl

def Traversal.Stand.calls (s : Traversal.Stand (σ × List Call)) : List Call := s.progress.world.2

namespace Run

def calls (config : EngineConfig) (h : Handler σ) (cancelled : σ → Bool) (f : Flow)
    (input : Record) (entryId : Option String) (world : σ) : List Call :=
  (runWith config h.recorded (fun w => cancelled w.1) f input entryId (world, [])).world.2

theorem runWith_recorded (config : EngineConfig) (h : Handler σ) (cancelled : σ → Bool) (f : Flow)
    (input : Record) (entryId : Option String) (world : σ) :
    runWith config h cancelled f input entryId world =
      (runWith config h.recorded (fun w => cancelled w.1) f input entryId (world, [])).mapWorld
        Prod.fst :=
  runWith_mapWorld (g := Prod.fst) (fun _ _ _ => rfl) config input entryId (world, [])

/-- A run that has a result is a traversal that records its calls. -/
theorem traverse_recorded_of_runWith_ok {config : EngineConfig} {h : Handler σ}
    {cancelled : σ → Bool} {f : Flow} {input : Record} {entryId : Option String} {world : σ}
    {r : RunResult} (hr : (runWith config h cancelled f input entryId world).result = .ok r) :
    ∃ first p, entry f config.triggerPrefix entryId = .ok first ∧
      Traversal.traverse config.fanOut h.recorded (fun w => cancelled w.1) f [first.id] []
        (begun f input first (world, [])) = (.ok (), p) ∧
      calls config h cancelled f input entryId world = p.world.2 ∧ r = resultOf p := by
  have hr' : (runWith config h.recorded (fun w => cancelled w.1) f input entryId
      (world, [])).result = .ok r := by
    rw [runWith_recorded] at hr
    exact hr
  obtain ⟨first, p, hentry, hc, ht, hres⟩ := traverse_of_runWith_ok hr'
  refine ⟨first, p, hentry, ht, ?_, hres⟩
  rw [calls, runWith_of_entry hentry hc, ht]

/-- Services with the settings that there are by default, and without credentials. -/
def bareServices : Services := ⟨.default, fun id => .error (.credentialNotFound id)⟩

/-- The same for runs that go on after a failure. -/
def tolerantServices : Services := { bareServices with config.engine.fanOut := .continueSiblings }

end Run

end Automation
