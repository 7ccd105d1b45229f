import Automation.Graph.Validation
import Automation.Proofs.Traversal.Step
import Mathlib.Data.List.Dedup

/-!
# The loop ends on every graph

`traverseWithin` gives up where it would take more ids off the stack, or run more nodes, than it is
allowed.  `traverseWithin_edges` says that one id and one more for each edge are enough, and one run for
each distinct id of a node, whatever the edges look like, whichever id it starts at and whatever the
handlers do.

Two quantities pay for the turns.  An id that is taken off the stack for the first time brings at most
the edges that leave it, and those are then met for good: the height of the stack and the edges not
yet met go down together by one at least.  A node that is run takes its id from the ids not yet
visited.  Ids that are passed over, nodes that fail and edges that are not followed only lower them
further.
-/

namespace Automation.Traversal

variable {σ : Type}

/-- The distinct ids of nodes that have not been visited. -/
def unvisited (f : Flow) (visited : List String) : List String :=
  f.nodeIds.dedup.filter fun id => !visited.contains id

variable {policy : FanOut} {h : Handler σ} {cancelled : σ → Bool} {f : Flow}

theorem unvisited_nil : unvisited f [] = f.nodeIds.dedup :=
  List.filter_eq_self.2 fun _ _ => rfl

theorem unmet_nil (edges : List Edge) : Graph.unmet edges [] = edges :=
  List.filter_eq_self.2 fun _ _ => rfl

theorem length_unvisited_cons {id : String} {n : Node} {visited : List String}
    (hn : f.node? id = some n) (hv : id ∉ visited) :
    (unvisited f (id :: visited)).length < (unvisited f visited).length := by
  have hid : id ∈ unvisited f visited := by
    have hname : n.id = id := by simpa using List.find?_some hn
    have hmem : n ∈ f.nodes := List.mem_of_find?_eq_some hn
    refine List.mem_filter.2 ⟨List.mem_dedup.2 (hname ▸ List.mem_map_of_mem hmem), ?_⟩
    simpa using hv
  have hcons : unvisited f (id :: visited) = (unvisited f visited).filter (· ≠ id) := by
    rw [unvisited, unvisited, List.filter_filter]
    refine List.filter_congr fun x _ => ?_
    by_cases hx : x = id <;> simp [hx]
  rw [hcons, List.length_filter_lt_length_iff_exists]
  exact ⟨id, hid, by simp⟩

/-- What is on the stack and the edges not yet met are ids enough for the loop, and the ids not yet
visited are runs enough. -/
theorem exists_traverseWithin {pops runs : Nat} {stack visited : List String} {p : Progress σ}
    (hpops : stack.length + (Graph.unmet f.edges visited).length ≤ pops)
    (hruns : (unvisited f visited).length ≤ runs) :
    ∃ r, traverseWithin policy h cancelled f pops runs stack visited p = some r := by
  induction pops generalizing runs stack visited p with
  | zero =>
    obtain rfl : stack = [] := List.eq_nil_of_length_eq_zero (by omega)
    exact ⟨_, rfl⟩
  | succ pops ih =>
    cases stack with
    | nil => exact ⟨_, rfl⟩
    | cons id stack =>
      rw [traverseWithin]
      rw [List.length_cons] at hpops
      by_cases hv : id ∈ visited
      · rw [if_pos hv]
        exact ih (by omega) hruns
      rw [if_neg hv]
      by_cases hc : cancelled p.world = true
      · rw [if_pos hc]
        exact ⟨_, rfl⟩
      rw [if_neg hc]
      cases hn : f.node? id with
      | none => exact ⟨_, rfl⟩
      | some n =>
        have hmet := @Graph.length_unmet_cons f.edges _ _ hv
        have hfresh := length_unvisited_cons hn hv
        -- The id is one of those not yet visited, so that there is a run for it.
        obtain ⟨runs, rfl⟩ := Nat.exists_eq_add_one_of_ne_zero (show runs ≠ 0 by omega)
        rcases hvisit : visit policy h n p with ⟨branch | _ | e, p'⟩ <;> simp only [hvisit]
        · have hfollowed := length_followed_le f id branch
          have hstack : (followed f id branch ++ stack).length =
              (followed f id branch).length + stack.length := List.length_append
          exact ih (by omega) (by omega)
        · exact ih (by omega) (by omega)
        · exact ⟨_, rfl⟩

/-- From whichever id the loop starts, it ends with one id taken off the stack and at most one more for
each edge, and it runs at most as many nodes as there are distinct ids. -/
theorem traverseWithin_edges (policy : FanOut) (h : Handler σ) (cancelled : σ → Bool) (f : Flow)
    (start : String) (p : Progress σ) :
    traverseWithin policy h cancelled f (1 + f.edges.length) f.nodeIds.dedup.length [start] [] p =
      some (traverse policy h cancelled f [start] [] p) := by
  have hpops : [start].length + (Graph.unmet f.edges []).length ≤ 1 + f.edges.length :=
    Nat.le_of_eq (by rw [unmet_nil, List.length_singleton])
  have hruns : (unvisited f []).length ≤ f.nodeIds.dedup.length :=
    Nat.le_of_eq (by rw [unvisited_nil])
  obtain ⟨r, hr⟩ := @exists_traverseWithin _ policy h cancelled _ _ _ _ _ p hpops hruns
  rw [hr, traverse_of_within hr]

/-- A flow with two nodes of one id, and two edges from it to itself. -/
def spinning : Flow :=
  { Flow.new "spinning" with
    nodes := [.new "top" "step", .new "top" "step"]
    edges := [.new "top" "top", .new "top" "top"] }

-- On this flow the whole allowance is needed, and it has one run for the two nodes.
example :
    let loop pops runs := (traverseWithin .abortAll (fun _ context world => ((.ok [], context), world))
      (fun _ => false) spinning pops runs ["top"] []
      (.start (Context.start spinning []) ())).map fun r => r.1.isOk
    loop 3 1 = some true ∧ loop 2 1 = none ∧ loop 3 0 = none :=
  ⟨rfl, rfl, rfl⟩

end Automation.Traversal
