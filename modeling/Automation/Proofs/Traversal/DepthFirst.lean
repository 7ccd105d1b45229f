import Automation.Proofs.Traversal.Step

/-!
# Traversal is depth-first search

`explore` is depth-first search as a recursion: an id that has been visited is passed over, and after
a node has completed the targets of its edges are explored one after the other.  It knows no stack.
What is left to explore once a node is done stands in the calls that are still open, so the ids
visited so far are handed from each call to the next, and each call gives back at least the ids that
it was given (`Explored`).

The theorem this file exists for is `traverse_singleton`: going through a flow from an entry leaves
the same result and the same progress as exploring the entry.  Progress holds the state of the run,
its steps and failures, everything told about it, and the world, so nothing that a handler can see or
do tells the two apart.  The invariant is `traverse_eq_exploreAll`: the stack is the list of ids that
the open calls still have to explore, in the order in which they will.
-/

namespace Automation.Traversal

variable {σ : Type}

/-! ## The recursion -/

/-- The edges that an output selects among those that leave a node, in order: all of them, or those
of the branch that the output names. -/
def onward (f : Flow) (id : String) (output : Record) : List Edge :=
  match output.get? handleKey with
  | none => f.outgoing id
  | some v => (f.outgoing id).filter fun e => e.sourceHandle = some (.ofList v.text)

/-- What exploring leaves behind: the ids visited by then, or the failure that ended it. -/
abbrev Explored (σ : Type) (visited : List String) :=
  Except Failure { later : List String // visited ⊆ later } × Progress σ

theorem length_unmet_le_of_subset {edges : List Edge} {met met' : List String} (hsub : met ⊆ met') :
    (Graph.unmet edges met').length ≤ (Graph.unmet edges met).length := by
  rw [Graph.unmet, Graph.unmet, ← List.countP_eq_length_filter, ← List.countP_eq_length_filter]
  refine List.countP_mono_left fun e _ he => ?_
  simp only [List.contains_eq_mem, Bool.not_eq_true', decide_eq_false_iff_not] at he ⊢
  exact fun hm => he (hsub hm)

theorem length_onward_le (f : Flow) (id : String) (output : Record) :
    (onward f id output).length ≤ (Graph.leaving f.edges id).length := by
  unfold onward
  split
  · exact Nat.le_refl _
  · exact List.length_filter_le ..

mutual

def explore (policy : FanOut) (h : Handler σ) (cancelled : σ → Bool) (f : Flow)
    (id : String) (visited : List String) (p : Progress σ) : Explored σ visited :=
  if _hv : id ∈ visited then (.ok ⟨visited, List.Subset.refl _⟩, p)
  else if cancelled p.world then (.error .cancelled, p)
  else
    match f.node? id with
    | none => (.error (.nodeNotFound id), p)
    | some n =>
      let p := p.tell (.nodeStarted n.id n.type)
      match h n p.context p.world with
      | ((.error e, context), world) =>
        let e := e.inNode n.id n.displayName
        let p := { p with context, world }.tell (.nodeFailed n.id e.message)
        match policy with
        | .abortAll => (.error e, p)
        | .continueSiblings => (.ok ⟨id :: visited, List.subset_cons_self ..⟩, p.abandon n e)
      | ((.ok output, context), world) =>
        let p := { p with context, world }.complete n output
        match exploreAll policy h cancelled f ((onward f id output).map Edge.target)
          (id :: visited) p with
        | (.error e, p) => (.error e, p)
        | (.ok ⟨later, hl⟩, p) =>
          (.ok ⟨later, List.Subset.trans (List.subset_cons_self ..) hl⟩, p)
termination_by 2 * (Graph.unmet f.edges visited).length + 1
decreasing_by
  have := @Graph.length_unmet_cons f.edges _ _ _hv
  have := length_onward_le f id output
  simp only [List.length_map]
  omega

def exploreAll (policy : FanOut) (h : Handler σ) (cancelled : σ → Bool) (f : Flow)
    (ids visited : List String) (p : Progress σ) : Explored σ visited :=
  match ids with
  | [] => (.ok ⟨visited, List.Subset.refl _⟩, p)
  | id :: ids =>
    match explore policy h cancelled f id visited p with
    | (.error e, p) => (.error e, p)
    | (.ok ⟨later, hl⟩, p) =>
      match exploreAll policy h cancelled f ids later p with
      | (.error e, p) => (.error e, p)
      | (.ok ⟨last, hl'⟩, p) => (.ok ⟨last, List.Subset.trans hl hl'⟩, p)
termination_by 2 * (Graph.unmet f.edges visited).length + 2 * ids.length
decreasing_by
  · simp only [List.length_cons]
    omega
  · have := @length_unmet_le_of_subset f.edges _ _ hl
    simp only [List.length_cons]
    omega

end

/-! ## Going on after it -/

namespace Explored

/-- Goes on with the ids visited by then, unless a failure has ended the search. -/
def andThen {visited : List String} (r : Explored σ visited)
    (next : List String → Progress σ → Except Failure Unit × Progress σ) :
    Except Failure Unit × Progress σ :=
  match r with
  | (.error e, p) => (.error e, p)
  | (.ok later, p) => next later.1 p

def outcome {visited : List String} (r : Explored σ visited) : Except Failure Unit × Progress σ :=
  r.andThen fun _ p => (.ok (), p)

end Explored

variable {policy : FanOut} {h : Handler σ} {cancelled : σ → Bool} {f : Flow}

theorem andThen_exploreAll_cons (id : String) (ids visited : List String) (p : Progress σ)
    (next : List String → Progress σ → Except Failure Unit × Progress σ) :
    (exploreAll policy h cancelled f (id :: ids) visited p).andThen next =
      (explore policy h cancelled f id visited p).andThen fun later p =>
        (exploreAll policy h cancelled f ids later p).andThen next := by
  rw [exploreAll]
  rcases explore policy h cancelled f id visited p with ⟨e | ⟨later, hl⟩, p'⟩
  · rfl
  · rcases hr : exploreAll policy h cancelled f ids later p' with ⟨e | ⟨last, hl'⟩, p''⟩ <;>
      simp [Explored.andThen, hr]

theorem andThen_exploreAll_append (ids ids' visited : List String) (p : Progress σ)
    (next : List String → Progress σ → Except Failure Unit × Progress σ) :
    (exploreAll policy h cancelled f (ids ++ ids') visited p).andThen next =
      (exploreAll policy h cancelled f ids visited p).andThen fun later p =>
        (exploreAll policy h cancelled f ids' later p).andThen next := by
  induction ids generalizing visited p with
  | nil =>
    rw [List.nil_append, exploreAll]
    rfl
  | cons id ids ih =>
    rw [List.cons_append, andThen_exploreAll_cons, andThen_exploreAll_cons]
    simp only [ih]

/-- The branch that an output names has the edges that the output selects. -/
theorem followed_branch? (id : String) (output : Record) :
    followed f id output.branch? = (onward f id output).map Edge.target := by
  rw [followed, onward, Record.branch?]
  cases output.get? handleKey with
  | none =>
    rw [Option.map_none]
    exact congrArg (List.map Edge.target) (List.filter_eq_self.mpr fun _ _ => rfl)
  | some v => rfl

/-- Exploring an id for the first time is visiting its node, and then exploring the ids that the
visit leads to. -/
theorem andThen_explore_fresh {id : String} {n : Node} {visited : List String} {p : Progress σ}
    (hv : id ∉ visited) (hc : cancelled p.world = false) (hn : f.node? id = some n)
    (next : List String → Progress σ → Except Failure Unit × Progress σ) :
    (explore policy h cancelled f id visited p).andThen next =
      match visit policy h n p with
      | (.fail e, p) => (.error e, p)
      | (.skip, p) => next (id :: visited) p
      | (.follow branch, p) =>
        (exploreAll policy h cancelled f (followed f id branch) (id :: visited) p).andThen next := by
  rw [explore, dif_neg hv, if_neg (by simp [hc]), hn]
  -- The handler sees the state and the world from before it was told that the node has started.
  have hsame : h n (p.tell (.nodeStarted n.id n.type)).context
      (p.tell (.nodeStarted n.id n.type)).world = h n p.context p.world := rfl
  rcases hr : h n p.context p.world with ⟨⟨e | output, context⟩, world⟩
  · rw [visit_of_error hr]
    simp only [hsame, hr]
    cases policy <;> rfl
  · rw [visit_of_ok hr]
    simp only [hsame, hr, followed_branch?, Progress.ran]
    split
    · next he =>
      rw [he]
      rfl
    · next hl =>
      rw [hl]
      rfl

/-! ## The stack -/

/-- The stack holds the ids that the open calls of the recursion still have to explore. -/
theorem traverse_eq_exploreAll (stack visited : List String) (p : Progress σ) :
    traverse policy h cancelled f stack visited p =
      (exploreAll policy h cancelled f stack visited p).outcome := by
  fun_induction traverse policy h cancelled f stack visited p with
  | case1 visited p =>
    rw [exploreAll]
    rfl
  | case2 id stack visited p hv ih =>
    rw [Explored.outcome, andThen_exploreAll_cons, explore, dif_pos hv]
    exact ih
  | case3 id stack visited p hv hc =>
    rw [Explored.outcome, andThen_exploreAll_cons, explore, dif_neg hv, if_pos hc]
    rfl
  | case4 id stack visited p hv hc hn =>
    rw [Explored.outcome, andThen_exploreAll_cons, explore, dif_neg hv, if_neg hc, hn]
    rfl
  | case5 id stack visited p hv hc n hn e p' hvisit =>
    rw [Explored.outcome, andThen_exploreAll_cons,
      andThen_explore_fresh hv (by simpa using hc) hn, hvisit]
  | case6 id stack visited p hv hc n hn p' hvisit ih =>
    rw [Explored.outcome, andThen_exploreAll_cons,
      andThen_explore_fresh hv (by simpa using hc) hn, hvisit]
    exact ih
  | case7 id stack visited p hv hc n hn branch p' hvisit ih =>
    rw [Explored.outcome, andThen_exploreAll_cons,
      andThen_explore_fresh hv (by simpa using hc) hn, hvisit]
    rw [ih, Explored.outcome, andThen_exploreAll_append]

/-- Going through a flow from an entry is exploring the entry: both give the same result and leave
the same progress, whatever the handlers do and whenever the run is cancelled. -/
theorem traverse_singleton (policy : FanOut) (h : Handler σ) (cancelled : σ → Bool) (f : Flow)
    (entry : String) (p : Progress σ) :
    traverse policy h cancelled f [entry] [] p =
      (explore policy h cancelled f entry [] p).outcome := by
  have hnil : ∀ later p, (exploreAll policy h cancelled f [] later p).outcome = (.ok (), p) := by
    intro later p
    rw [exploreAll]
    rfl
  rw [traverse_eq_exploreAll, Explored.outcome, andThen_exploreAll_cons]
  exact congrArg (Explored.andThen _) (funext fun later => funext fun p => hnil later p)

end Automation.Traversal
