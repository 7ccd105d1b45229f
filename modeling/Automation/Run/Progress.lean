import Automation.Config
import Automation.Run.Context

/-!
How far a run has come: the steps taken, the branches given up, and what has been told about it.
-/

namespace Automation

/-- A node that has completed. -/
structure StepRecord where
  nodeId : String
  label : String
  nodeType : String
deriving DecidableEq

/-- A node whose branch has been given up. -/
structure Abandoned where
  nodeId : String
  label : String
  error : String
deriving DecidableEq

inductive RunEvent where
  | runStarted (flowId entry : String)
  | nodeStarted (id type : String)
  | nodeCompleted (id : String)
  | nodeFailed (id error : String)
  | runCompleted (flowId : String) (steps : Nat)
  | runFailed (flowId error : String)
deriving DecidableEq

structure Progress (σ : Type) where
  context : Context
  steps : List StepRecord
  failures : List Abandoned
  events : List RunEvent
  world : σ

namespace Progress

variable {σ : Type}

def start (context : Context) (world : σ) : Progress σ := ⟨context, [], [], [], world⟩

def tell (p : Progress σ) (e : RunEvent) : Progress σ := { p with events := p.events ++ [e] }

def complete (p : Progress σ) (n : Node) (output : Record) : Progress σ :=
  { p with
    context := p.context.absorb output
    steps := p.steps ++ [⟨n.id, n.displayName, n.type⟩]
    events := p.events ++ [.nodeCompleted n.id] }

def abandon (p : Progress σ) (n : Node) (e : Failure) : Progress σ :=
  { p with failures := p.failures ++ [⟨n.id, n.displayName, e.message⟩] }

end Progress

end Automation
