import Automation.Flow
import Automation.Template

/-!
The state of a run.

The scope starts as the variables of the flow overlaid by the input, and takes in the output of every
node that completes.  An output may also select a branch, under a key of its own that is left out of
what the scope takes in.
-/

namespace Automation

/-- A message that a run has prepared and that its caller delivers. -/
structure Outbound where
  nodeId : String
  text : String
  replyToTrigger : Bool
  integrationId : Option String
deriving DecidableEq

namespace Outbound

def encode (m : Outbound) : Value :=
  .object (Record.optional "integration_id" .string m.integrationId
    ++ [("node_id", .string m.nodeId), ("reply_to_trigger", .bool m.replyToTrigger),
      ("text", .string m.text)])

end Outbound

/-- The key under which an output names the branch to go on with. -/
def handleKey : String := "_handle"

/-- The state of a run: its scope, the input it began with, the output of the node that completed
last, and the messages prepared so far. -/
structure Context where
  scope : Record
  input : Record
  output : Record
  outbound : List Outbound

namespace Context

/-- The variables that a flow declares; of two under one name the later counts. -/
def declared (f : Flow) : Record := Keyed.ofList (f.declarations.map fun v => (v.name, v.value))

def start (f : Flow) (input : Record) : Context :=
  ⟨Keyed.overlay (declared f) input, input, [], []⟩

def absorb (c : Context) (output : Record) : Context :=
  { c with
    scope := Keyed.overlay c.scope (output.filter fun m => m.1 ≠ handleKey)
    output }

def handle? (c : Context) : Option String :=
  (c.output.get? handleKey).map fun v => .ofList v.text

def interpolate (c : Context) (s : String) : String :=
  .ofList (Template.interpolate c.scope s.toList)

def text? (c : Context) (name : String) : Option String :=
  ((c.scope.get? name).bind Value.asString?).filter (!·.isEmpty)

end Context

end Automation
