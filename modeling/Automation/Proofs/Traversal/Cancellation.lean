import Automation.Proofs.Traversal.History
import Automation.Proofs.Traversal.Reachable
import Automation.Rehearsal

/-!
# Cancelled runs

A run meets its cancellation when it takes an id off its stack, or when the node that it is waiting
for gives up (`Cancels`).  `endsCancelled_iff` says what follows.  No node is called any more.  The run
ends with a failure that tells of the cancellation if the failure of a node ends it, and otherwise
exactly if it is `Unfinished`, that is, if followed edges lead to a node that has not been called.

So a run that is cancelled while its last node waits, and whose siblings go on after a failure, ends
as if it had not been cancelled (`isOk_cancelled_delay`): the node that gave up is recorded like any
node that failed, and there is no further id for which the run would look whether to go on.
-/

namespace Automation

variable {σ : Type}

namespace Traversal

/-- Whether followed edges lead from the entry to a node that has not been called. -/
def Unfinished (f : Flow) (entry : String) (calls : List Call) : Prop :=
  ∃ id, Leads f ((calls.filter Call.completes).map Call.step) calls entry id ∧
    id ∉ calls.map Call.nodeId

/-- A turn in which a run meets its cancellation, with the call that is made in it: an id is taken off
the stack and the run has been cancelled, or the node of an id gives up because it has been. -/
inductive Cancels (h : Handler σ) (cancelled : σ → Bool) (f : Flow) :
    Stand (σ × List Call) → List Call → Prop
  | taken {id : String} {stack visited : List String} {p : Progress (σ × List Call)}
    (hc : cancelled p.world.1 = true) : Cancels h cancelled f ⟨id :: stack, visited, p⟩ []
  | gaveUp {id : String} {stack visited : List String} {p : Progress (σ × List Call)} {n : Node}
    {context : Context} {world : σ} (hv : id ∉ visited) (hc : cancelled p.world.1 = false)
    (hn : f.node? id = some n) (hr : h n p.context p.world.1 = ((.error .cancelled, context), world))
    (ht : cancelled world = true) :
    Cancels h cancelled f ⟨id :: stack, visited, p⟩ [⟨n, p.context, (.error .cancelled, context)⟩]

variable {policy : FanOut} {h : Handler σ} {cancelled : σ → Bool} {f : Flow}

/-- Once it has been cancelled a traversal passes over the ids that it has visited and stops at the
first that it has not. -/
theorem traverse_cancelled {stack visited : List String} {p : Progress σ}
    (hc : cancelled p.world = true) :
    traverse policy h cancelled f stack visited p = (.error .cancelled, p) ∧
        (∃ id ∈ stack, id ∉ visited) ∨
      traverse policy h cancelled f stack visited p = (.ok (), p) ∧ stack ⊆ visited := by
  induction stack with
  | nil =>
    rw [traverse]
    exact Or.inr ⟨rfl, List.nil_subset _⟩
  | cons id stack ih =>
    by_cases hv : id ∈ visited
    · rw [traverse, dif_pos hv]
      rcases ih with ⟨hstop, x, hx, hnew⟩ | ⟨hend, hsub⟩
      · exact Or.inl ⟨hstop, x, List.mem_cons_of_mem _ hx, hnew⟩
      · exact Or.inr ⟨hend, List.cons_subset.mpr ⟨hv, hsub⟩⟩
    · rw [traverse, dif_neg hv, if_pos hc]
      exact Or.inl ⟨rfl, id, List.mem_cons_self, hv⟩

/-- A run is unfinished exactly if there is an id on its stack that it has not visited. -/
theorem Accounts.unfinished_iff {entry : String} {first : Context} {s : Stand (σ × List Call)}
    (ha : Accounts f entry s) (hr : s.Recounts h f first) :
    Unfinished f entry s.calls ↔ ∃ id ∈ s.stack, id ∉ s.visited := by
  have hcalled : ∀ id, id ∈ s.calls.map Call.nodeId ↔ id ∈ s.visited := by
    intro id
    rw [ha.visited, List.mem_reverse]
  rw [Unfinished, ← hr.steps]
  constructor
  · rintro ⟨id, hleads, hnew⟩
    by_contra hnone
    -- Without such an id the visited ids are closed under followed edges.
    have hmet : ∀ x, s.Met x → x ∈ s.visited := by
      rintro x (hx | hx)
      · exact not_not.mp fun hxnew => hnone ⟨x, hx, hxnew⟩
      · exact hx
    refine hnew ((hcalled id).mpr ?_)
    induction hleads with
    | refl => exact hmet _ ha.entry_met
    | tail _ hlast _ =>
      obtain ⟨e, he, -, rfl⟩ := hlast
      exact hmet _ (ha.closed e he)
  · rintro ⟨id, hid, hnew⟩
    exact ⟨id, ha.reached id (Or.inl hid), fun hmem => hnew ((hcalled id).mp hmem)⟩

end Traversal

namespace Run

open Traversal

variable {config : EngineConfig} {h : Handler σ} {cancelled : σ → Bool} {f : Flow} {input : Record}
  {entryId : Option String} {world : σ} {s : Stand (σ × List Call)}

def EndsCancelled (r : RunReport σ) : Prop := ∃ e, r.result = .error e ∧ e.kind = .cancellation

/-- A run that has been cancelled where it stands calls no node any more, and is cancelled exactly if
there is a node left to call. -/
theorem endsCancelled_of_passes (hs : Passes config h cancelled f input entryId world s)
    (hc : cancelled s.progress.world.1 = true) :
    calls config h cancelled f input entryId world = s.calls ∧
      (EndsCancelled (runWith config h cancelled f input entryId world) ↔
        ∃ first, entry f config.triggerPrefix entryId = .ok first ∧
          Unfinished f first.id s.calls) := by
  have hrecounts := recounts_of_passes hs
  obtain ⟨first, he, -, hsteps⟩ := id hs
  have haccounts : Accounts f first.id s :=
    Stand.keeps Accounts.step hsteps (Accounts.start _ rfl rfl rfl)
  have hleft : (∃ first, entry f config.triggerPrefix entryId = .ok first ∧
      Unfinished f first.id s.calls) ↔ ∃ id ∈ s.stack, id ∉ s.visited := by
    rw [← haccounts.unfinished_iff hrecounts]
    constructor
    · rintro ⟨first', he', hleft⟩
      rwa [Except.ok.inj (he.symm.trans he')]
    · exact fun hleft => ⟨first, he, hleft⟩
  rw [hleft]
  rcases @traverse_cancelled _ config.fanOut h.recorded (fun w => cancelled w.1) f s.stack
    s.visited s.progress hc with ⟨ht, hnew⟩ | ⟨ht, hsub⟩
  · obtain ⟨hresult, hcalls, -⟩ := runWith_of_passes hs ht
    exact ⟨hcalls, fun _ => hnew, fun _ => ⟨_, hresult, rfl⟩⟩
  · obtain ⟨hresult, hcalls, -⟩ := runWith_of_passes hs ht
    refine ⟨hcalls, ?_, ?_⟩
    · rintro ⟨e, he, -⟩
      rw [hresult] at he
      cases he
    · rintro ⟨id, hid, hnew⟩
      exact absurd (hsub hid) hnew

/-- When a run meets its cancellation no other node is called.  It ends with a failure that tells of
the cancellation if a node gave up and the first failure is to end the run, and otherwise exactly if
followed edges lead to a node that has not been called. -/
theorem endsCancelled_iff {given : List Call}
    (hs : Passes config h cancelled f input entryId world s) (hm : Cancels h cancelled f s given) :
    calls config h cancelled f input entryId world = s.calls ++ given ∧
      (EndsCancelled (runWith config h cancelled f input entryId world) ↔
        config.fanOut = .abortAll ∧ given ≠ [] ∨
          ∃ first, entry f config.triggerPrefix entryId = .ok first ∧
            Unfinished f first.id (calls config h cancelled f input entryId world)) := by
  cases hm with
  | taken hc =>
    obtain ⟨hcalls, hends⟩ := endsCancelled_of_passes hs hc
    rw [hcalls]
    refine ⟨(List.append_nil _).symm, hends.trans ?_⟩
    simp
  | @gaveUp id stack visited p n context world' hv hc hn hr ht =>
    have hrec : h.recorded n p.context p.world =
        ((.error .cancelled, context), world',
          p.world.2 ++ [⟨n, p.context, (.error .cancelled, context)⟩]) := by
      rw [Handler.recorded, hr]
    cases hp : config.fanOut with
    | abortAll =>
      obtain ⟨hresult, hcalls, -⟩ := runWith_of_passes hs
        (traverse_of_stop (.aborted hp hv hc hn hrec))
      refine ⟨hcalls, fun _ => Or.inl ⟨rfl, List.cons_ne_nil _ _⟩, fun _ => ⟨_, hresult, rfl⟩⟩
    | continueSiblings =>
      -- The run goes on to a stand at which it has been cancelled.
      obtain ⟨first, he, hcycle, hsteps⟩ := hs
      obtain ⟨hcalls, hends⟩ := endsCancelled_of_passes
        ⟨first, he, hcycle, hsteps.tail (.abandoned hp hv hc hn hrec)⟩ ht
      rw [hcalls]
      refine ⟨rfl, hends.trans ?_⟩
      simp

/-- The handler of the fork for runs that are cancelled while the node `left` runs.  The world says
whether that has happened. -/
def interruptedHandler : Handler Bool := fun n context stopped =>
  match n.id with
  | "start" => ((.ok [(handleKey, .string "yes")], context), stopped)
  | "left" => ((.error .cancelled, context), true)
  | _ => ((.ok [], context), stopped)

/-- The node `left` gives up and `other` is left to call, so the run is cancelled. -/
theorem endsCancelled_iff_fork :
    (calls forkConfig interruptedHandler id fork [] none false).map Call.nodeId = ["start", "left"] ∧
      EndsCancelled (runWith forkConfig interruptedHandler id fork [] none false) := by
  let first : Node := .new "start" "trigger_fork"
  let left : Node := .new "left" "step"
  let output : Record := [(handleKey, .string "yes")]
  let w : Bool × List Call := (false, [⟨first, Context.start fork [], (.ok output, .start fork [])⟩])
  let p : Progress (Bool × List Call) :=
    ((begun fork [] first (false, [])).ran first (.start fork []) w).complete first output
  have he : entry fork forkConfig.triggerPrefix none = .ok first := rfl
  have hc : fork.findCycle? [first.id] = none := by cbv
  have hstep : Step forkConfig.fanOut interruptedHandler.recorded (fun w => id w.1) fork
      ⟨[first.id], [], begun fork [] first (false, [])⟩
      ⟨followed fork first.id output.branch? ++ [], ["start"], p⟩ :=
    .completed List.not_mem_nil rfl rfl rfl
  have hs : Passes forkConfig interruptedHandler id fork [] none false
      ⟨["left", "other"], ["start"], p⟩ := ⟨first, he, hc, .single hstep⟩
  have hm : Cancels interruptedHandler id fork ⟨["left", "other"], ["start"], p⟩
      [⟨left, p.context, (.error .cancelled, p.context)⟩] :=
    .gaveUp (by decide) rfl rfl rfl rfl
  obtain ⟨hcalls, hends⟩ := endsCancelled_iff hs hm
  refine ⟨by rw [hcalls]; rfl, hends.mpr (Or.inr ⟨first, he, "other", ?_, ?_⟩)⟩
  · rw [hcalls]
    refine .single ⟨.fromHandle "start" "yes" "other", ⟨by decide, ?_, ?_⟩, rfl, rfl⟩
    · decide
    · exact ⟨_, List.mem_cons_self, rfl, output, rfl, fun v hv => by cases hv; rfl⟩
  · rw [hcalls]
    decide

/-! ## A cancelled run that ends well -/

def nap : Flow :=
  { Flow.new "nap" with
    nodes := [.new "start" "trigger_nap", (Node.new "nap" "delay").configure "duration" (.ofNat 30)]
    edges := [.new "start" "nap"] }

def shortRehearsal : Rehearsal :=
  ⟨.zero, some (.ofSeconds 10), .lines [], .lines [], .unreachable, [], []⟩

/-- The node that waits gives up when the run is cancelled, and yet the run ends well. -/
theorem isOk_cancelled_delay :
    (calls tolerantServices.config.engine (Node.run tolerantServices Rehearsal.world)
        Rehearsal.world.cancelled nap [] none shortRehearsal).map Call.failure? =
      [none, some .cancelled] ∧
    (execute tolerantServices Rehearsal.world nap [] none shortRehearsal).world.isCancelled ∧
    (execute tolerantServices Rehearsal.world nap [] none shortRehearsal).result.isOk := by
  let first : Node := .new "start" "trigger_nap"
  have he : entry nap tolerantServices.config.engine.triggerPrefix none = .ok first := rfl
  have hc : nap.findCycle? [first.id] = none := by
    show Graph.searchRoots [.new "start" "nap"] ["start"] [] = none
    cbv
  have hwithin : ((traverseWithin .continueSiblings
      (Handler.recorded (Node.run tolerantServices Rehearsal.world)) (fun w => w.1.isCancelled) nap 3 3
      [first.id] [] (begun nap [] first (shortRehearsal, []))).map fun r =>
        (r.1.isOk, r.2.world.1.isCancelled, r.2.world.2.map Call.failure?)) =
      some (true, true, [none, some .cancelled]) := by
    decide +kernel
  obtain ⟨⟨outcome, p⟩, ht, hp⟩ := Option.map_eq_some_iff.mp hwithin
  simp only [Prod.mk.injEq] at hp
  obtain ⟨hok, hcancelled, hfailures⟩ := hp
  have hs : Passes tolerantServices.config.engine (Node.run tolerantServices Rehearsal.world)
      Rehearsal.world.cancelled nap [] none shortRehearsal
      ⟨[first.id], [], begun nap [] first (shortRehearsal, [])⟩ := ⟨first, he, hc, .refl⟩
  obtain ⟨hresult, hcalls, hworld⟩ := runWith_of_passes hs (traverse_of_within ht)
  rw [execute, hresult, hcalls, hworld]
  refine ⟨hfailures, hcancelled, ?_⟩
  cases outcome with
  | error e => cases hok
  | ok _ => rfl

end Run

end Automation
