import Automation.Node.Config
import Automation.Run.Agent
import Automation.Run.Local
import Automation.Run.Query
import Automation.Run.Request

/-!
The plan of a node, by its type.
-/

namespace Automation

/-- Waits as long as is allowed.  The output is the scope as it is. -/
def DelayConfig.plan (c : DelayConfig) (s : Services) (context : Context) : Plan :=
  match c.wait? s.config.engine.delayLimit with
  | some time =>
    if time = .zero then .settled (.ok context.scope) else .wait time context.scope
  | none => .settled (.ok context.scope)

/-- The plan for a configuration.  A trigger gives the input of the run, and a type that nothing is
known about lets the scope through. -/
def NodeConfig.plan (s : Services) (nodeId : String) (context : Context) : NodeConfig → Plan
  | .trigger => .settled (.ok context.input)
  | .agent c => c.plan s context
  | .request c => c.plan s context
  | .query c => c.plan s context
  | .branch c => .settled (.ok (c.output context.scope))
  | .delay c => c.plan s context
  | .message c => c.plan nodeId context
  | .assignment c => c.plan context
  | .unknown _ => .settled (.ok context.scope)

def Node.plan (s : Services) (n : Node) (context : Context) : Plan :=
  match NodeConfig.ofNode n s.config.engine.triggerPrefix with
  | .error e => .settled (.error e)
  | .ok c => c.plan s n.id context

def Node.run {σ : Type} (s : Services) (w : World σ) (n : Node) (context : Context) (world : σ) :
    Left × σ :=
  (n.plan s context).perform w context world

end Automation
