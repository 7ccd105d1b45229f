import Automation.Graph.Edges

/-!
Cycles of a flow.

`findCycle?` searches depth first from each root in turn.  The path to where the search stands is kept
as a stack of ids, each with the ids still to be tried from it; an edge back to an id on the path closes
a cycle, and that id is the answer.  An id all of whose edges have been tried is done and is never
searched again.  Every step lowers `weight`, so the search ends on every graph.
-/

namespace Automation.Graph

/-- An id on the path of a search, and the ids still to be tried from it. -/
abbrev Visit := String × List String

def untried : List Visit → Nat
  | [] => 0
  | v :: path => v.2.length + untried path

/-- Twice the edges not yet taken or tried, and once the ids on the path. -/
def weight (edges : List Edge) (path : List Visit) (done : List String) : Nat :=
  2 * (unmet edges (path.map Prod.fst ++ done)).length
    + 2 * untried path + path.length

theorem weight_pop (edges : List Edge) (id : String) (path : List Visit) (done : List String) :
    weight edges path (id :: done) < weight edges ((id, []) :: path) done := by
  have h : unmet edges (path.map Prod.fst ++ id :: done)
      = unmet edges (((id, []) :: path).map Prod.fst ++ done) := by
    apply unmet_congr
    intro x
    simp only [List.map_cons, List.cons_append, List.mem_append, List.mem_cons]
    constructor
    · rintro (h | h | h) <;> simp [h]
    · rintro (h | h | h) <;> simp [h]
  simp [weight, untried, h]

theorem weight_tried (edges : List Edge) (id next : String) (rest : List String) (path : List Visit)
    (done : List String) :
    weight edges ((id, rest) :: path) done < weight edges ((id, next :: rest) :: path) done := by
  simp [weight, untried]

theorem weight_push {edges : List Edge} (id : String) {next : String} (rest : List String)
    {path : List Visit} {done : List String}
    (h : next ∉ ((id, next :: rest) :: path).map Prod.fst ++ done) :
    weight edges ((next, targets edges next) :: (id, rest) :: path) done
      < weight edges ((id, next :: rest) :: path) done := by
  have hlen := @length_unmet_cons edges _ _ h
  simp only [weight, untried, List.map_cons, List.length_cons, List.cons_append,
    length_targets] at hlen ⊢
  omega

theorem new_of_not_any {path : List Visit} {done : List String} {next : String}
    (hactive : ¬(path.any fun v => v.1 = next) = true) (hdone : ¬done.contains next = true) :
    next ∉ path.map Prod.fst ++ done := by
  simp only [List.any_eq_true, decide_eq_true_eq, not_exists, not_and] at hactive
  rw [List.mem_append, not_or]
  refine ⟨fun hmem => ?_, by simpa using hdone⟩
  obtain ⟨v, hv, hnext⟩ := List.mem_map.1 hmem
  exact hactive v hv hnext

/-- Searches on from a path.  The answer is the id at which a cycle closes, or none; and the ids that
are done. -/
def search (edges : List Edge) (path : List Visit) (done : List String) :
    Option String × List String :=
  match path with
  | [] => (none, done)
  | (id, []) :: path => search edges path (id :: done)
  | (id, next :: rest) :: path =>
    if (id, next :: rest) :: path |>.any fun v => v.1 = next then (some next, done)
    else if done.contains next then search edges ((id, rest) :: path) done
    else search edges ((next, targets edges next) :: (id, rest) :: path) done
termination_by weight edges path done
decreasing_by
  · exact weight_pop edges id path done
  · exact weight_tried edges id next rest path done
  · rename_i hactive hdone
    exact weight_push id rest (new_of_not_any hactive hdone)

def searchRoots (edges : List Edge) : (roots done : List String) → Option String
  | [], _ => none
  | root :: roots, done =>
    if done.contains root then searchRoots edges roots done
    else
      match search edges [(root, targets edges root)] done with
      | (some id, _) => some id
      | (none, done) => searchRoots edges roots done

end Automation.Graph

namespace Automation.Flow

/-- An id at which a cycle closes that can be reached from the roots, if there is a cycle. -/
def findCycle? (f : Flow) (roots : List String) : Option String :=
  Graph.searchRoots f.edges roots []

end Automation.Flow
