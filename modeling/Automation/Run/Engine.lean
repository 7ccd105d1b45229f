import Automation.Graph.Cycle
import Automation.Run.Dispatch
import Automation.Run.Traversal

/-!
Running a flow from its entry to its end.

A flow is not begun if its entry cannot be found or if a cycle can be reached from it.
-/

namespace Automation

structure RunResult where
  output : Record
  scope : Record
  steps : List StepRecord
  outbound : List Outbound
  failures : List Abandoned

def RunResult.encode (r : RunResult) : Value :=
  .object [
    ("failures", .array (r.failures.map fun f =>
      .object [("error", .string f.error), ("label", .string f.label),
        ("node_id", .string f.nodeId)])),
    ("outbound", .array (r.outbound.map Outbound.encode)),
    ("output", .object r.output),
    ("steps", .array (r.steps.map fun s =>
      .object [("label", .string s.label), ("node_id", .string s.nodeId),
        ("node_type", .string s.nodeType)])),
    ("variables", .object r.scope)]

/-- What a run leaves behind: its result, what was told about it, and the world after it. -/
structure RunReport (σ : Type) where
  result : Except Failure RunResult
  events : List RunEvent
  world : σ

namespace Run

variable {σ : Type}

/-- The node that a run begins with: the one asked for, or the first trigger. -/
def entry (f : Flow) (triggerPrefix : String) : Option String → Except Failure Node
  | some id =>
    match f.node? id with
    | some n => .ok n
    | none => .error (.nodeNotFound id)
  | none =>
    match f.trigger? triggerPrefix with
    | some n => .ok n
    | none => .error .noTrigger

def resultOf (p : Progress σ) : RunResult :=
  ⟨p.context.output, p.context.scope, p.steps, p.context.outbound, p.failures⟩

def runWith (config : EngineConfig) (h : Handler σ) (cancelled : σ → Bool) (f : Flow)
    (input : Record) (entryId : Option String) (world : σ) : RunReport σ :=
  match entry f config.triggerPrefix entryId with
  | .error e => ⟨.error e, [], world⟩
  | .ok first =>
    match f.findCycle? [first.id] with
    | some id => ⟨.error (.cycle id), [], world⟩
    | none =>
      let p := (Progress.start (Context.start f input) world).tell (.runStarted f.id first.id)
      match Traversal.traverse config.fanOut h cancelled f [first.id] [] p with
      | (.error e, p) => ⟨.error e, (p.tell (.runFailed f.id e.message)).events, p.world⟩
      | (.ok (), p) =>
        ⟨.ok (resultOf p), (p.tell (.runCompleted f.id p.steps.length)).events, p.world⟩

def execute (s : Services) (w : World σ) (f : Flow) (input : Record) (entryId : Option String)
    (world : σ) : RunReport σ :=
  runWith s.config.engine (Node.run s w) w.cancelled f input entryId world

end Run

end Automation
