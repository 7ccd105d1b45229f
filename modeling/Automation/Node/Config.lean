import Automation.Failure
import Automation.Node.Agent
import Automation.Node.Branch
import Automation.Node.Delay
import Automation.Node.Message
import Automation.Node.Query
import Automation.Node.Request

/-!
What a node is configured to do.

`NodeConfig.ofNode` reads the free-form data of a node as the configuration of its type and checks
it.  The same reading decides whether a flow may be saved and precedes every run of a node.
-/

namespace Automation

inductive NodeConfig where
  | trigger
  | agent (c : AgentConfig)
  | request (c : RequestConfig)
  | query (c : QueryConfig)
  | branch (c : BranchConfig)
  | delay (c : DelayConfig)
  | message (c : MessageConfig)
  | assignment (c : AssignmentConfig)
  /-- A type that nothing is known about. -/
  | unknown (type : String)

namespace NodeConfig

open Json (Decoder)

def read {α : Type} (n : Node) (d : Decoder α) (check : α → Except Complaint Unit) :
    Except Failure α := do
  let refuse (m : String) : Failure := .configuration (n.type ++ " node '" ++ n.id ++ "': " ++ m)
  let c ← (d.ofValue (.object n.data)).mapError fun e => refuse e.message
  (check c).mapError refuse
  pure c

/-- Reads a node's configuration.  Every type with the prefix of triggers is a trigger. -/
def ofNode (n : Node) (triggerPrefix : String) : Except Failure NodeConfig :=
  if n.isTrigger triggerPrefix then .ok .trigger
  else
    match n.type with
    | "ai_agent" => .agent <$> read n AgentConfig.decoder AgentConfig.check
    | "http_request" => .request <$> read n RequestConfig.decoder RequestConfig.check
    | "database" => .query <$> read n QueryConfig.decoder QueryConfig.check
    | "condition" => .branch <$> read n BranchConfig.decoder BranchConfig.check
    | "delay" => .delay <$> read n DelayConfig.decoder DelayConfig.check
    | "send_message" => .message <$> read n MessageConfig.decoder fun _ => .ok ()
    | "set_variable" => .assignment <$> read n AssignmentConfig.decoder fun _ => .ok ()
    | type => .ok (.unknown type)

end NodeConfig

end Automation
