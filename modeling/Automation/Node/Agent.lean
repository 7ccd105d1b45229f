import Automation.Node.Basic

/-!
Configuration of a node that asks a language model.
-/

namespace Automation

/-- A node that asks a language model.  The key comes from a credential or stands inline. -/
structure AgentConfig where
  credentialId : Option String
  apiKey : Option String
  model : Option String
  systemPrompt : Option String

namespace AgentConfig

open Json (Decoder Layout)

def layout :=
  Layout.optional "credential_id" (.option Decoder.text) none <|
  .optional "api_key" (.option Decoder.text) none <|
  .optional "model" (.option Decoder.text) none <|
  .optional "system_prompt" (.option Decoder.text) none .nil

def decoder : Decoder AgentConfig :=
  layout.decoder "AiAgentConfig" fun (credentialId, apiKey, model, systemPrompt, ()) =>
    ⟨credentialId, apiKey, model, systemPrompt⟩

def encode (c : AgentConfig) : Value :=
  .object [("api_key", .ofOption .string c.apiKey),
    ("credential_id", .ofOption .string c.credentialId), ("model", .ofOption .string c.model),
    ("system_prompt", .ofOption .string c.systemPrompt)]

def credential? (c : AgentConfig) : Option String := present c.credentialId

def inlineKey? (c : AgentConfig) : Option String := present c.apiKey

def model? (c : AgentConfig) : Option String := present c.model

def systemPrompt? (c : AgentConfig) : Option String := present c.systemPrompt

def check (c : AgentConfig) : Except Complaint Unit :=
  if c.credential?.isNone ∧ c.inlineKey?.isNone then
    .error "AI agent requires API key (credential_id or api_key)"
  else .ok ()

end AgentConfig

end Automation
