import Automation.Node.Branch
import Automation.Node.Message
import Automation.Run.Plan

/-!
The nodes that need nothing from outside: they choose a branch, prepare a message or set a variable.
-/

namespace Automation

/-- Whether a rule holds of a scope.  A path that leads nowhere leads to null. -/
def Rule.holds (scope : Record) (r : Rule) : Bool :=
  r.operator.holds ((scope.lookup r.field.toList).getD .null) r.value

namespace BranchConfig

/-- Whether the rules hold of a scope.  Of no rules all hold and none does. -/
def holds (c : BranchConfig) (scope : Record) : Bool :=
  match c.combinator with
  | .and => c.rules.all (Rule.holds scope)
  | .or => c.rules.any (Rule.holds scope)

/-- The result, and the branch that is named like it. -/
def output (c : BranchConfig) (scope : Record) : Record :=
  let result := c.holds scope
  [(handleKey, .string (toString result)), ("result", .bool result)]

end BranchConfig

namespace MessageConfig

def outbound (c : MessageConfig) (nodeId : String) (context : Context) : Outbound :=
  ⟨nodeId, context.interpolate c.message, c.replyToTrigger,
    c.integrationId.filter (!·.isEmpty)⟩

def output (c : MessageConfig) (context : Context) : Record :=
  let text := Value.string (context.interpolate c.message)
  [("message", text), ("reply_to_trigger", .bool c.replyToTrigger), ("response", text)]

/-- Prepares the message.  Nothing is sent from here. -/
def plan (c : MessageConfig) (nodeId : String) (context : Context) : Plan :=
  .changed { context with outbound := context.outbound ++ [c.outbound nodeId context] }
    (c.output context)

end MessageConfig

namespace AssignmentConfig

/-- The value to set.  Only a text by itself is interpolated. -/
def assigned (c : AssignmentConfig) (context : Context) : Value :=
  match c.value with
  | .string s => .string (context.interpolate s)
  | v => v

def plan (c : AssignmentConfig) (context : Context) : Plan :=
  if c.name.isEmpty then .settled (.ok context.scope)
  else
    let value := c.assigned context
    .changed { context with scope := Keyed.insert c.name value context.scope }
      [(c.name, value)]

end AssignmentConfig

end Automation
