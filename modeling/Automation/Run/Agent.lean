import Automation.Node.Agent
import Automation.Run.Services

/-!
Running a node that asks a language model.

The key is that of the credential, and with it come the credential's endpoint and organization; only
where the credential cannot be had or has no key does the key written in the node count.
-/

namespace Automation.AgentConfig

/-- The credential of a node, if it can be had and has a key. -/
def access? (c : AgentConfig) (s : Services) : Option ModelAccess :=
  match c.credential?.map (s.resolve .model) with
  | some (.ok access) => if access.apiKey.isEmpty then none else some access
  | _ => none

def organizationHeader : String := "OpenAI-Organization"

/-- The settings of the call, with neither key nor endpoint of a credential. -/
def baseModel (c : AgentConfig) (s : Services) : ModelConfig :=
  let defaults := s.config.llm
  { ModelConfig.new (c.model?.getD defaults.defaultModel) with
    provider := defaults.provider
    maxTokens := defaults.maxTokens
    temperature := defaults.temperature
    baseUrl := defaults.baseUrl }

def withAccess (m : ModelConfig) (access : ModelAccess) : ModelConfig :=
  { m with
    apiKey := some access.apiKey
    baseUrl := (access.baseUrl.filter (!·.isEmpty)).or m.baseUrl
    extraHeaders :=
      match access.organization.filter (!·.isEmpty) with
      | some name => Keyed.insert organizationHeader name m.extraHeaders
      | none => m.extraHeaders }

def callModel (c : AgentConfig) (s : Services) : Except Failure ModelConfig :=
  match c.access? s, c.inlineKey? with
  | some access, _ => .ok (withAccess (c.baseModel s) access)
  | none, some key => .ok { c.baseModel s with apiKey := some key }
  | none, none => .error (.configuration "AI agent requires API key")

def messages (c : AgentConfig) (s : Services) (context : Context) :
    Except Failure (List ChatMessage) :=
  match (context.text? "message").or (context.text? "text") with
  | none => .error (.configuration "no message to process")
  | some message =>
    let prompt := c.systemPrompt?.getD s.config.llm.defaultSystemPrompt
    .ok [⟨.system, context.interpolate prompt⟩, ⟨.user, message⟩]

def output (answer : String) : Record :=
  let reply := Value.ofText (Text.trim answer.toList)
  [("ai_response", reply), ("message", reply), ("response", reply)]

def plan (c : AgentConfig) (s : Services) (context : Context) : Plan :=
  match c.callModel s with
  | .error e => .settled (.error e)
  | .ok model =>
    match c.messages s context with
    | .error e => .settled (.error e)
    | .ok messages => .chat model messages fun deltas => (completionText deltas).map output

end Automation.AgentConfig
