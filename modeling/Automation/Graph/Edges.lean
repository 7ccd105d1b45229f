import Automation.Flow

/-!
Edges as steps between ids.

Both searches over a flow, the one for cycles and the run itself, take the edges that leave an id when
they first meet it.  What is left to take is the number of edges that leave no id met so far; meeting a
new id lowers it by the edges that leave that id (`length_unmet_cons`).
-/

namespace Automation.Graph

def targets (edges : List Edge) (id : String) : List String := (leaving edges id).map Edge.target

/-- The edges that leave no id met so far. -/
def unmet (edges : List Edge) (met : List String) : List Edge :=
  edges.filter fun e => !met.contains e.source

theorem length_targets (edges : List Edge) (id : String) :
    (targets edges id).length = (leaving edges id).length := List.length_map _

/-- Meeting a new id takes the edges that leave it off those not yet met. -/
theorem length_unmet_cons {edges : List Edge} {met : List String} {id : String} (h : id ∉ met) :
    (unmet edges (id :: met)).length + (leaving edges id).length = (unmet edges met).length := by
  induction edges with
  | nil => rfl
  | cons e r ih =>
    simp only [unmet, leaving, List.filter_cons, List.contains_eq_mem, List.mem_cons] at ih ⊢
    by_cases hs : e.source = id
    · subst hs
      simp [h] at ih ⊢
      omega
    · by_cases hm : e.source ∈ met <;> simp [hs, hm] at ih ⊢ <;> omega

/-- What has been met counts as a set. -/
theorem unmet_congr {edges : List Edge} {met met' : List String} (h : ∀ id, id ∈ met ↔ id ∈ met') :
    unmet edges met = unmet edges met' := by
  unfold unmet
  congr 1
  funext e
  simp [List.contains_eq_mem, h]

end Automation.Graph
