import Automation.Node.Basic

/-!
Configuration of the nodes that touch nothing but the run: one prepares a message, the other sets a
variable.
-/

namespace Automation

structure MessageConfig where
  message : String
  replyToTrigger : Bool
  integrationId : Option String

structure AssignmentConfig where
  name : String
  value : Value

open Json (Decoder Layout)

namespace MessageConfig

def layout :=
  Layout.optional "message" Decoder.text "" <|
  .optional "reply_to_trigger" Decoder.bool false <|
  .optional "integration_id" (.option Decoder.text) none .nil

def decoder : Decoder MessageConfig :=
  layout.decoder "SendMessageConfig" fun (message, replyToTrigger, integrationId, ()) =>
    ⟨message, replyToTrigger, integrationId⟩

def encode (c : MessageConfig) : Value :=
  .object [("integration_id", .ofOption .string c.integrationId), ("message", .string c.message),
    ("reply_to_trigger", .bool c.replyToTrigger)]

end MessageConfig

namespace AssignmentConfig

def layout :=
  Layout.optional "name" Decoder.text "" <| .optional "value" Decoder.any .null .nil

def decoder : Decoder AssignmentConfig :=
  layout.decoder "SetVariableConfig" fun (name, value, ()) => ⟨name, value⟩

def encode (c : AssignmentConfig) : Value :=
  .object [("name", .string c.name), ("value", c.value)]

end AssignmentConfig

end Automation
