import Automation.Graph.Edges
import Automation.Run.Plan
import Automation.Run.Progress

/-!
Going through a flow.

Nodes run depth first from the entry, each once at most, and an edge is followed when its source has
completed and the edge belongs to the branch that the source selected.  The ids still to be visited
are kept on a stack.  Visiting one takes it off the stack and puts on it targets of edges that leave
it, so the stack and the edges that leave no visited id shrink together and the run ends on every
flow.
-/

namespace Automation

abbrev Handler (σ : Type) := Node → Context → σ → Left × σ

namespace Traversal

variable {σ : Type}

/-- Whether an edge belongs to the branch that is selected.  Where none is, all do. -/
def selects (branch : Option String) (e : Edge) : Bool :=
  match branch with
  | some name => e.sourceHandle = some name
  | none => true

def followed (f : Flow) (id : String) (branch : Option String) : List String :=
  ((Graph.leaving f.edges id).filter (selects branch)).map Edge.target

theorem length_followed_le (f : Flow) (id : String) (branch : Option String) :
    (followed f id branch).length ≤ (Graph.leaving f.edges id).length := by
  simp only [followed, List.length_map]
  exact List.length_filter_le ..

/-- What is left of a run after one node: it goes on, with the branch that the node selects if the
node has completed, or it has failed. -/
inductive Next where
  | follow (branch : Option String)
  | skip
  | fail (e : Failure)

def visit (policy : FanOut) (h : Handler σ) (n : Node) (p : Progress σ) : Next × Progress σ :=
  let p := p.tell (.nodeStarted n.id n.type)
  let ((result, context), world) := h n p.context p.world
  let p := { p with context, world }
  match result with
  | .ok output =>
    let p := p.complete n output
    (.follow p.context.handle?, p)
  | .error e =>
    let e := Failure.inNode n.id n.displayName e
    let p := p.tell (.nodeFailed n.id e.message)
    match policy with
    | .abortAll => (.fail e, p)
    | .continueSiblings => (.skip, p.abandon n e)

def traverse (policy : FanOut) (h : Handler σ) (cancelled : σ → Bool) (f : Flow) :
    (stack visited : List String) → Progress σ → Except Failure Unit × Progress σ
  | [], _, p => (.ok (), p)
  | id :: stack, visited, p =>
    if _h : id ∈ visited then traverse policy h cancelled f stack visited p
    else if cancelled p.world then (.error .cancelled, p)
    else
      match f.node? id with
      | none => (.error (.nodeNotFound id), p)
      | some n =>
        match visit policy h n p with
        | (.fail e, p) => (.error e, p)
        | (.skip, p) => traverse policy h cancelled f stack (id :: visited) p
        | (.follow branch, p) =>
          traverse policy h cancelled f (followed f id branch ++ stack) (id :: visited) p
termination_by stack visited => stack.length + (Graph.unmet f.edges visited).length
decreasing_by
  · simp
  · have := @Graph.length_unmet_cons f.edges _ _ _h
    simp only [List.length_cons]
    omega
  · have := @Graph.length_unmet_cons f.edges _ _ _h
    have := length_followed_le f id branch
    simp only [List.length_cons, List.length_append]
    omega

end Traversal

end Automation
