import Automation.Chat.Completion
import Automation.Run.Context
import Automation.Sql.Statement

/-!
What running a node comes down to.

A `Plan` says what a node asks of the world outside and what it makes of the answer.  It has room for one
question, as no node needs more, and only a plan that asks nothing changes the state of the run.  A `World`
answers.
-/

namespace Automation

/-- The outcome of something that is given up as soon as the run is cancelled. -/
inductive Raced (α : Type) where
  | cancelled
  | done (x : α)

/-- What a node asks of the world, and its output when the world has answered. -/
inductive Plan where
  /-- The output or the failure is known already. -/
  | settled (output : Except Failure Record)
  /-- The state of the run changes, and the output is known. -/
  | changed (context : Context) (output : Record)
  | wait (time : Duration) (output : Record)
  | chat (model : ModelConfig) (messages : List ChatMessage)
      (output : List (Except Failure Delta) → Except Failure Record)
  | query (access : DatabaseAccess) (statement : Statement) (output : SqlOutcome → Record)
  | request (draft : Http.Draft) (output : Http.Response → Record)

/-- The world outside of runs, with what it remembers in `σ`. -/
structure World (σ : Type) where
  /-- Whether the run has been cancelled. -/
  cancelled : σ → Bool
  wait : Duration → σ → Raced Unit × σ
  chat : ModelConfig → List ChatMessage → σ →
    Raced (Except Failure (List (Except Failure Delta))) × σ
  query : DatabaseAccess → Statement → σ → Except Failure SqlOutcome × σ
  request : Http.Draft → σ → Raced (Except Failure Http.Response) × σ

/-- What a node leaves behind: its output or its failure, and the state of the run. -/
abbrev Left := Except Failure Record × Context

/-- Goes on with what has been done, unless the run was cancelled first. -/
def Raced.settle {α : Type} (r : Raced α) (next : α → Except Failure Record) :
    Except Failure Record :=
  match r with
  | .cancelled => .error .cancelled
  | .done x => next x

namespace Plan

variable {σ : Type}

def perform (w : World σ) (c : Context) (s : σ) : Plan → Left × σ
  | settled output => ((output, c), s)
  | changed c output => ((.ok output, c), s)
  | wait time output =>
    let (reply, s) := w.wait time s
    ((reply.settle fun () => .ok output, c), s)
  | chat model messages output =>
    let (reply, s) := w.chat model messages s
    ((reply.settle fun deltas => deltas.bind output, c), s)
  | query access statement output =>
    let (reply, s) := w.query access statement s
    ((reply.map output, c), s)
  | request draft output =>
    let (reply, s) := w.request draft s
    ((reply.settle fun response => response.map output, c), s)

end Plan

end Automation
