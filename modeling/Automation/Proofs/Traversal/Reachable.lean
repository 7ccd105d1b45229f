import Automation.Proofs.Traversal.Calls
import Mathlib.Data.List.Nodup

/-!
# The nodes that a run reaches

Which edges a run follows depends on the outputs that it meets on its way, so the graph that it goes
through is known only when it has ended: an edge is followed if its source has completed and the
output of its source selects it (`Follows`).  `mem_nodeIds_iff_leads` says that a run which ends well
has run a node exactly if followed edges lead to it from the entry, and each such node once.

The proof is by the invariant `Accounts` over the steps of the run.  Its two halves are the usual
ones for a search.  Every id met so far is led to (`reached`), and every followed edge ends at an id
met so far (`closed`), where an id is met if it has been visited or is still on the stack.  When the
stack is empty the visited ids are closed under followed edges, and that is all of them.
-/

namespace Automation

def RunResult.nodeIds (r : RunResult) : List String :=
  r.steps.map StepRecord.nodeId ++ r.failures.map Abandoned.nodeId

def Call.nodeId (c : Call) : String := c.node.id

namespace Traversal

variable {σ : Type}

/-- Whether an output selects an edge that leaves its node: it names no branch, or that of the
edge. -/
def Selects (output : Record) (e : Edge) : Prop :=
  ∀ v, output.get? handleKey = some v → e.sourceHandle = some (.ofList v.text)

/-- An edge that a run follows: its source has completed with an output that selects it. -/
structure Follows (f : Flow) (steps : List StepRecord) (calls : List Call) (e : Edge) : Prop where
  mem : e ∈ f.edges
  completed : e.source ∈ steps.map StepRecord.nodeId
  selected : ∃ c ∈ calls, c.nodeId = e.source ∧ ∃ output, c.left.1 = .ok output ∧ Selects output e

def Leads (f : Flow) (steps : List StepRecord) (calls : List Call) : String → String → Prop :=
  Relation.ReflTransGen fun a b => ∃ e, Follows f steps calls e ∧ e.source = a ∧ e.target = b

/-! ## Edges followed so far -/

section Followed

variable {f : Flow} {steps steps' : List StepRecord} {calls calls' : List Call} {c : Call}

theorem Follows.mono (hs : steps ⊆ steps') (hc : calls ⊆ calls') {e : Edge}
    (h : Follows f steps calls e) : Follows f steps' calls' e := by
  obtain ⟨c, hmem, hrest⟩ := h.selected
  exact ⟨h.mem, List.map_subset _ hs h.completed, c, hc hmem, hrest⟩

theorem Leads.mono (hs : steps ⊆ steps') (hc : calls ⊆ calls') {a b : String}
    (h : Leads f steps calls a b) : Leads f steps' calls' a b := by
  refine Relation.ReflTransGen.mono (fun a b hab => ?_) a b h
  obtain ⟨e, he, hends⟩ := hab
  exact ⟨e, he.mono hs hc, hends⟩

theorem follows_of_failed {e' : Failure} (hc : c.left.1 = .error e') {e : Edge}
    (h : Follows f steps (calls ++ [c]) e) : Follows f steps calls e := by
  obtain ⟨c', hmem, hid, output, hout, hsel⟩ := h.selected
  rcases List.mem_append.mp hmem with hmem | hmem
  · exact ⟨h.mem, h.completed, c', hmem, hid, output, hout, hsel⟩
  · rw [List.mem_singleton.mp hmem, hc] at hout
    cases hout

/-- The edges followed once a node has completed are those from before and those of its own that its
output selects. -/
theorem follows_of_completed {step : StepRecord} {output : Record}
    (hsteps : ∀ c' ∈ calls, c'.completes → c'.nodeId ∈ steps.map StepRecord.nodeId)
    (hc : c.left.1 = .ok output) {e : Edge} (h : Follows f (steps ++ [step]) (calls ++ [c]) e) :
    Follows f steps calls e ∨ e ∈ f.edges ∧ e.source = c.nodeId ∧ Selects output e := by
  obtain ⟨c', hmem, hid, output', hout, hsel⟩ := h.selected
  rcases List.mem_append.mp hmem with hmem | hmem
  · left
    have hdone : c'.nodeId ∈ steps.map StepRecord.nodeId :=
      hsteps c' hmem (by rw [Call.completes, hout]; rfl)
    exact ⟨h.mem, hid ▸ hdone, c', hmem, hid, output', hout, hsel⟩
  · right
    rw [List.mem_singleton.mp hmem] at hid hout
    rw [hc] at hout
    cases hout
    exact ⟨h.mem, hid.symm, hsel⟩

/-- The edges of its own that the output of a node selects are followed once it has completed. -/
theorem follows_of_selects {step : StepRecord} {output : Record} (hstep : step.nodeId = c.nodeId)
    (hc : c.left.1 = .ok output) {e : Edge} (hmem : e ∈ f.edges) (hsrc : e.source = c.nodeId)
    (hsel : Selects output e) : Follows f (steps ++ [step]) (calls ++ [c]) e where
  mem := hmem
  completed := List.mem_map.mpr ⟨step, List.mem_append_right _ (List.mem_singleton_self _),
    hstep.trans hsrc.symm⟩
  selected := ⟨c, List.mem_append_right _ (List.mem_singleton_self _), hsrc.symm, output, hc, hsel⟩

/-- The ids that a node leads on to are the targets of the edges that its output selects. -/
theorem mem_followed_iff {id target : String} {output : Record} :
    target ∈ followed f id output.branch? ↔
      ∃ e ∈ f.edges, e.source = id ∧ Selects output e ∧ e.target = target := by
  have hsel : ∀ e : Edge, selects output.branch? e = true ↔ Selects output e := by
    intro e
    unfold selects Selects Record.branch?
    cases output.get? handleKey <;> simp
  simp only [followed, Graph.leaving, List.mem_map, List.mem_filter, hsel, decide_eq_true_eq]
  constructor
  · rintro ⟨e, ⟨⟨hmem, hsrc⟩, hs⟩, ht⟩
    exact ⟨e, hmem, hsrc, hs, ht⟩
  · rintro ⟨e, hmem, hsrc, hs, ht⟩
    exact ⟨e, ⟨⟨hmem, hsrc⟩, hs⟩, ht⟩

end Followed

/-! ## The invariant -/

theorem id_of_node? {f : Flow} {id : String} {n : Node} (hn : f.node? id = some n) : n.id = id := by
  simpa using List.find?_some hn

namespace Stand

/-- Whether an id has been met: it has been visited, or it is still to be. -/
def Met (s : Stand σ) (id : String) : Prop := id ∈ s.stack ∨ id ∈ s.visited

end Stand

/-- What the steps of a run keep: the visited ids are those of the calls made, each once, the steps
and the failures are the calls that completed and those that did not, and the ids met are those that
followed edges lead to from the entry, as far as it has been gone. -/
structure Accounts (f : Flow) (entry : String) (s : Stand (σ × List Call)) : Prop where
  visited : s.calls.map Call.nodeId = s.visited.reverse
  nodup : s.visited.Nodup
  steps : s.progress.steps.map StepRecord.nodeId =
    (s.calls.filter Call.completes).map Call.nodeId
  failures : s.progress.failures.map Abandoned.nodeId =
    (s.calls.filter fun c => !c.completes).map Call.nodeId
  entry_met : s.Met entry
  closed : ∀ e, Follows f s.progress.steps s.calls e → s.Met e.target
  reached : ∀ id, s.Met id → Leads f s.progress.steps s.calls entry id

namespace Accounts

variable {f : Flow} {entry : String}

theorem start (p : Progress (σ × List Call)) (hsteps : p.steps = []) (hfailures : p.failures = [])
    (hcalls : p.world.2 = []) : Accounts f entry ⟨[entry], [], p⟩ where
  visited := by simp [Stand.calls, hcalls]
  nodup := List.nodup_nil
  steps := by simp [Stand.calls, hsteps, hcalls]
  failures := by simp [Stand.calls, hfailures, hcalls]
  entry_met := Or.inl (List.mem_singleton_self entry)
  closed := by
    intro e he
    have hdone := he.completed
    simp [hsteps] at hdone
  reached := by
    rintro id (hid | hid)
    · rw [List.mem_singleton.mp hid]
      exact .refl
    · cases hid

theorem mem_steps {s : Stand (σ × List Call)} (ha : Accounts f entry s) :
    ∀ c ∈ s.calls, c.completes → c.nodeId ∈ s.progress.steps.map StepRecord.nodeId := by
  intro c hc hdone
  rw [ha.steps]
  exact List.mem_map_of_mem (List.mem_filter.mpr ⟨hc, hdone⟩)

theorem calls_append {s : Stand (σ × List Call)} (ha : Accounts f entry s) {c : Call} {id : String}
    (hn : f.node? id = some c.node) :
    (s.calls ++ [c]).map Call.nodeId = (id :: s.visited).reverse := by
  have hid : c.nodeId = id := id_of_node? hn
  rw [List.map_append, List.map_singleton, List.reverse_cons, ha.visited, hid]

theorem seen {id : String} {stack visited : List String} {p : Progress (σ × List Call)}
    (hv : id ∈ visited) (ha : Accounts f entry ⟨id :: stack, visited, p⟩) :
    Accounts f entry ⟨stack, visited, p⟩ := by
  have hmet : ∀ x, Stand.Met ⟨id :: stack, visited, p⟩ x → Stand.Met ⟨stack, visited, p⟩ x := by
    rintro x (hx | hx)
    · rcases List.mem_cons.mp hx with rfl | hx
      · exact Or.inr hv
      · exact Or.inl hx
    · exact Or.inr hx
  have hmet' : ∀ x, Stand.Met ⟨stack, visited, p⟩ x → Stand.Met ⟨id :: stack, visited, p⟩ x :=
    fun x hx => hx.imp (List.mem_cons_of_mem id) fun h => h
  exact
    { visited := ha.visited
      nodup := ha.nodup
      steps := ha.steps
      failures := ha.failures
      entry_met := hmet _ ha.entry_met
      closed := fun e he => hmet _ (ha.closed e he)
      reached := fun x hx => ha.reached x (hmet' x hx) }

theorem abandoned {h : Handler σ} {id : String} {stack visited : List String}
    {p : Progress (σ × List Call)} {n : Node} {e : Failure} {context : Context}
    {world : σ × List Call} (hv : id ∉ visited) (hn : f.node? id = some n)
    (hr : h.recorded n p.context p.world = ((.error e, context), world))
    (ha : Accounts f entry ⟨id :: stack, visited, p⟩) :
    Accounts f entry ⟨stack, id :: visited,
      ((p.ran n context world).failed n e).abandon n (e.inNode n.id n.displayName)⟩ := by
  have hcalls : world.2 = p.world.2 ++ [⟨n, p.context, (.error e, context)⟩] :=
    Handler.recorded_calls hr
  have hmet : ∀ x, Stand.Met ⟨id :: stack, visited, p⟩ x ↔ x ∈ stack ∨ x ∈ id :: visited := by
    intro x
    simp only [Stand.Met, List.mem_cons]
    rw [or_assoc, or_left_comm]
  have hleads : ∀ x, Leads f p.steps p.world.2 entry x → Leads f p.steps world.2 entry x :=
    fun x hx => hx.mono (List.Subset.refl _) (by rw [hcalls]; exact List.subset_append_left ..)
  refine
    { visited := ?visited
      nodup := List.nodup_cons.mpr ⟨hv, ha.nodup⟩
      steps := ?steps
      failures := ?failures
      entry_met := (hmet _).mp ha.entry_met
      closed := ?closed
      reached := fun x hx => hleads x (ha.reached x ((hmet x).mpr hx)) }
  case visited =>
    show world.2.map Call.nodeId = (id :: visited).reverse
    rw [hcalls]
    exact ha.calls_append hn
  case steps =>
    show p.steps.map StepRecord.nodeId = (world.2.filter Call.completes).map Call.nodeId
    rw [hcalls, List.filter_append, List.map_append]
    exact ha.steps.trans (List.append_nil _).symm
  case failures =>
    show (p.failures ++ [_]).map Abandoned.nodeId =
      (world.2.filter fun c => !c.completes).map Call.nodeId
    rw [hcalls, List.filter_append, List.map_append, List.map_append]
    exact congrArg (· ++ [n.id]) ha.failures
  case closed =>
    intro e' he'
    have he'' : Follows f p.steps world.2 e' := he'
    rw [hcalls] at he''
    exact (hmet _).mp (ha.closed e' (follows_of_failed rfl he''))

theorem completed {h : Handler σ} {id : String} {stack visited : List String}
    {p : Progress (σ × List Call)} {n : Node} {output : Record} {context : Context}
    {world : σ × List Call} (hv : id ∉ visited) (hn : f.node? id = some n)
    (hr : h.recorded n p.context p.world = ((.ok output, context), world))
    (ha : Accounts f entry ⟨id :: stack, visited, p⟩) :
    Accounts f entry ⟨followed f id output.branch? ++ stack, id :: visited,
      (p.ran n context world).complete n output⟩ := by
  have hcalls : world.2 = p.world.2 ++ [⟨n, p.context, (.ok output, context)⟩] :=
    Handler.recorded_calls hr
  have hid : n.id = id := id_of_node? hn
  let steps := p.steps ++ [⟨n.id, n.displayName, n.type⟩]
  have hmet : ∀ x, (x ∈ followed f id output.branch? ++ stack ∨ x ∈ id :: visited) ↔
      x ∈ followed f id output.branch? ∨ Stand.Met ⟨id :: stack, visited, p⟩ x := by
    intro x
    simp only [Stand.Met, List.mem_cons, List.mem_append]
    rw [or_assoc, or_assoc, or_left_comm (a := x ∈ stack)]
  have hleads : ∀ x, Leads f p.steps p.world.2 entry x → Leads f steps world.2 entry x :=
    fun x hx => hx.mono (List.subset_append_left ..)
      (by rw [hcalls]; exact List.subset_append_left ..)
  refine
    { visited := ?visited
      nodup := List.nodup_cons.mpr ⟨hv, ha.nodup⟩
      steps := ?steps
      failures := ?failures
      entry_met := (hmet _).mpr (Or.inr ha.entry_met)
      closed := ?closed
      reached := ?reached }
  case visited =>
    show world.2.map Call.nodeId = (id :: visited).reverse
    rw [hcalls]
    exact ha.calls_append hn
  case steps =>
    show (p.steps ++ [_]).map StepRecord.nodeId = (world.2.filter Call.completes).map Call.nodeId
    rw [hcalls, List.filter_append, List.map_append, List.map_append]
    exact congrArg (· ++ [n.id]) ha.steps
  case failures =>
    show p.failures.map Abandoned.nodeId =
      (world.2.filter fun c => !c.completes).map Call.nodeId
    rw [hcalls, List.filter_append, List.map_append]
    exact ha.failures.trans (List.append_nil _).symm
  case closed =>
    intro e he
    have he' : Follows f steps world.2 e := he
    rw [hcalls] at he'
    refine (hmet _).mpr ?_
    rcases follows_of_completed ha.mem_steps rfl he' with hold | ⟨hmem, hsrc, hsel⟩
    · exact Or.inr (ha.closed e hold)
    · exact Or.inl (mem_followed_iff.mpr ⟨e, hmem, hsrc.trans hid, hsel, rfl⟩)
  case reached =>
    intro x hx
    rcases (hmet x).mp hx with hnew | hold
    · obtain ⟨e, hmem, hsrc, hsel, rfl⟩ := mem_followed_iff.mp hnew
      have hfollows : Follows f steps world.2 e := by
        rw [hcalls]
        exact follows_of_selects rfl rfl hmem (hsrc.trans hid.symm) hsel
      exact (hleads id (ha.reached id (Or.inl List.mem_cons_self))).tail ⟨e, hfollows, hsrc, rfl⟩
    · exact hleads x (ha.reached x hold)

/-- Each step of a run keeps its accounts. -/
theorem step {policy : FanOut} {h : Handler σ} {cancelled : σ × List Call → Bool}
    {s s' : Stand (σ × List Call)} (hs : Step policy h.recorded cancelled f s s')
    (ha : Accounts f entry s) : Accounts f entry s' := by
  cases hs with
  | seen hv => exact ha.seen hv
  | completed hv hc hn hr => exact ha.completed hv hn hr
  | abandoned hp hv hc hn hr => exact ha.abandoned hv hn hr

/-- When nothing is left to visit, the visited ids are those that followed edges lead to. -/
theorem mem_visited_iff {visited : List String} {p : Progress (σ × List Call)}
    (ha : Accounts f entry ⟨[], visited, p⟩) {id : String} :
    id ∈ visited ↔ Leads f p.steps p.world.2 entry id := by
  have hmet : ∀ x, Stand.Met ⟨[], visited, p⟩ x ↔ x ∈ visited := fun x => by simp [Stand.Met]
  constructor
  · intro hid
    exact ha.reached id (Or.inr hid)
  · intro hleads
    induction hleads with
    | refl => exact (hmet entry).mp ha.entry_met
    | tail _ hlast ih =>
      obtain ⟨e, he, -, rfl⟩ := hlast
      exact (hmet _).mp (ha.closed e he)

/-- The nodes that are called are those that complete and those that fail. -/
theorem calls_perm {s : Stand (σ × List Call)} (ha : Accounts f entry s) :
    (s.calls.map Call.nodeId).Perm
      (s.progress.steps.map StepRecord.nodeId ++ s.progress.failures.map Abandoned.nodeId) := by
  rw [ha.steps, ha.failures, ← List.map_append]
  exact ((List.filter_append_perm Call.completes s.calls).map Call.nodeId).symm

end Accounts

end Traversal

/-! ## What a run reaches -/

namespace Run

variable {σ : Type}

open Traversal in
/-- Of a run that ends well, the nodes that have completed or failed are those that followed edges
lead to from the entry, each of them once, and no other node is called. -/
theorem mem_nodeIds_iff_leads (config : EngineConfig) (h : Handler σ) (cancelled : σ → Bool)
    (f : Flow) (input : Record) (entryId : Option String) (world : σ) {r : RunResult}
    (hr : (runWith config h cancelled f input entryId world).result = .ok r) :
    r.nodeIds.Nodup ∧
      ((calls config h cancelled f input entryId world).map Call.nodeId).Perm r.nodeIds ∧
      ∃ first, entry f config.triggerPrefix entryId = .ok first ∧
        ∀ id, id ∈ r.nodeIds ↔
          Leads f r.steps (calls config h cancelled f input entryId world) first.id id := by
  obtain ⟨first, p, hentry, ht, hcalls, rfl⟩ := traverse_recorded_of_runWith_ok hr
  obtain ⟨visited, hsteps⟩ := steps_of_traverse_ok ht
  have hstart : Accounts f first.id ⟨[first.id], [], begun f input first (world, [])⟩ :=
    Accounts.start _ rfl rfl rfl
  have ha : Accounts f first.id ⟨[], visited, p⟩ := Stand.keeps Accounts.step hsteps hstart
  have hperm : (p.world.2.map Call.nodeId).Perm (resultOf p).nodeIds := ha.calls_perm
  have hvisited : p.world.2.map Call.nodeId = visited.reverse := ha.visited
  have hmem : ∀ id, id ∈ (resultOf p).nodeIds ↔ id ∈ visited := by
    intro id
    rw [← hperm.mem_iff, hvisited, List.mem_reverse]
  refine ⟨?_, hcalls ▸ hperm, first, hentry, fun id => ?_⟩
  · rw [← hperm.nodup_iff, hvisited, List.nodup_reverse]
    exact ha.nodup
  · rw [hcalls, hmem]
    exact ha.mem_visited_iff

/-- A flow that forks: of the nodes behind its start, `other` and then `last` complete, `left` fails,
`right` is on the branch that is not selected, and `join` is behind `left` and behind an edge that
belongs to no branch. -/
def fork : Flow :=
  { Flow.new "fork" with
    nodes := .new "start" "trigger_fork" ::
      ["left", "right", "other", "join", "last"].map fun id => .new id "step"
    edges := [.fromHandle "start" "yes" "left", .fromHandle "start" "no" "right",
      .fromHandle "start" "yes" "other", .new "start" "join", .new "left" "join",
      .new "other" "last"] }

def forkHandler : Handler Unit := fun n context world =>
  match n.id with
  | "start" => ((.ok [(handleKey, .string "yes")], context), world)
  | "left" => ((.error (.http "refused"), context), world)
  | _ => ((.ok [], context), world)

def forkConfig : EngineConfig := { EngineConfig.default with fanOut := .continueSiblings }

theorem mem_nodeIds_iff_leads_fork :
    ∃ r, (runWith forkConfig forkHandler (fun _ => false) fork [] none ()).result = .ok r ∧
      r.nodeIds = ["start", "other", "last", "left"] ∧
      Traversal.Leads fork r.steps (calls forkConfig forkHandler (fun _ => false) fork [] none ())
        "start" "last" ∧
      ¬Traversal.Leads fork r.steps
        (calls forkConfig forkHandler (fun _ => false) fork [] none ()) "start" "join" := by
  let first : Node := .new "start" "trigger_fork"
  have he : entry fork forkConfig.triggerPrefix none = .ok first := rfl
  have hc : fork.findCycle? [first.id] = none := by cbv
  obtain ⟨p, ht, hids⟩ : ∃ p, Traversal.traverse forkConfig.fanOut forkHandler (fun _ => false) fork
      [first.id] [] (begun fork [] first ()) = (.ok (), p) ∧
      (resultOf p).nodeIds = ["start", "other", "last", "left"] :=
    ⟨_, @Traversal.traverse_of_within _ _ _ _ _ 6 6 _ _ _ _ rfl, rfl⟩
  have hr : (runWith forkConfig forkHandler (fun _ => false) fork [] none ()).result =
      .ok (resultOf p) := by
    rw [runWith_of_entry he hc, ht]
  obtain ⟨-, -, first', he', hiff⟩ := mem_nodeIds_iff_leads _ _ _ _ _ _ _ hr
  have hfirst : first' = first := Except.ok.inj (he'.symm.trans he)
  subst hfirst
  refine ⟨_, hr, hids, (hiff "last").mp ?_, fun hleads => ?_⟩
  · rw [hids]
    decide
  · have hmem := (hiff "join").mpr hleads
    rw [hids] at hmem
    exact absurd hmem (by decide)

end Run

end Automation
