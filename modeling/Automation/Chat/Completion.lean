import Automation.Chat.Message
import Automation.Config
import Automation.Http.Exchange

/-!
Completions over HTTP: the request that asks for one, and the pieces in the events of the reply.
-/

namespace Automation.Chat

open Json (Decoder Layout)

/-! ## The request -/

def defaultBase : String := "https://api.openai.com/v1"

def endpoint : List Char := "/chat/completions".toList

/-- Where completions are asked for.  A base may already name the endpoint, and slashes at its end do
not count. -/
def completionsUrl (base : Option String) : List Char :=
  let base := ((base.getD defaultBase).toList.reverse.dropWhile (· = '/')).reverse
  if endpoint.isSuffixOf base then base else base ++ endpoint

def orderedObject (members : List (String × List Char)) : List Char :=
  '\x7b' :: ([','].intercalate (members.map fun (k, v) => Json.quote k.toList ++ ':' :: v)
    ++ ['\x7d'])

def messageText (m : ChatMessage) : List Char :=
  orderedObject [("role", Json.quote m.role.name.toList), ("content", Json.quote m.content.toList)]

def temperatureText (t : Single) : List Char := Json.print (Value.ofSingle t)

def requestBody (c : ModelConfig) (messages : List ChatMessage) : List Char :=
  orderedObject [("model", Json.quote c.modelId.toList),
    ("messages", '[' :: ([','].intercalate (messages.map messageText) ++ [']'])),
    ("max_tokens", Nat.toDigits 10 c.maxTokens), ("temperature", temperatureText c.temperature),
    ("stream", "true".toList), ("stream_options", orderedObject [("include_usage", "true".toList)])]

def draft (c : ModelConfig) (messages : List ChatMessage) : Http.Draft where
  method := "POST"
  url := .ofList (completionsUrl c.baseUrl)
  query := []
  headers := ("content-type", "application/json") :: (c.apiKey.map Http.bearer).toList
    ++ c.extraHeaders
  body := some (.ofList (requestBody c messages))
  timeout := none

/-! ## The reply -/

/-- An answer of the model, as far as it has come. -/
structure Choice where
  content : Option String
  finishReason : Option String

structure Usage where
  promptTokens : Nat
  completionTokens : Nat

structure Chunk where
  choices : List Choice
  usage : Option Usage

def contentLayout := Layout.optional "content" (.option Decoder.text) none .nil

def contentDecoder : Decoder (Option String) :=
  contentLayout.decoder "StreamDeltaContent" fun (content, ()) => content

def choiceLayout :=
  Layout.optional "delta" contentDecoder none <|
  .optional "finish_reason" (.option Decoder.text) none .nil

def choiceDecoder : Decoder Choice :=
  choiceLayout.decoder "StreamChoice" fun (content, finishReason, ()) => ⟨content, finishReason⟩

def usageLayout :=
  Layout.optional "prompt_tokens" Decoder.u64 0 <|
  .optional "completion_tokens" Decoder.u64 0 .nil

def usageDecoder : Decoder Usage :=
  usageLayout.decoder "StreamUsage" fun (promptTokens, completionTokens, ()) =>
    ⟨promptTokens, completionTokens⟩

def chunkLayout :=
  Layout.optional "choices" (.list choiceDecoder) [] <|
  .optional "usage" (.option usageDecoder) none .nil

def chunkDecoder : Decoder Chunk :=
  chunkLayout.decoder "StreamChunk" fun (choices, usage, ()) => ⟨choices, usage⟩

def stopReason : String → StopReason
  | "length" => .maxTokens
  | "stop_sequence" => .stopSequence
  | _ => .endTurn

/-- The pieces of an answer: its text, unless it is empty, and then why it stops. -/
def Choice.deltas (c : Choice) : List Delta :=
  ((c.content.filter (!·.isEmpty)).map Delta.text).toList
    ++ (c.finishReason.map fun r => Delta.stop (stopReason r)).toList

/-- The pieces in a chunk: those of the first answer, and the count of tokens. -/
def Chunk.deltas (c : Chunk) : List Delta :=
  (c.choices.take 1).flatMap Choice.deltas
    ++ (c.usage.map fun u => Delta.usage u.promptTokens u.completionTokens).toList

/-- The pieces in an event.  The mark at the end holds none, nor does what cannot be decoded. -/
def deltasOf (e : EventStream.Event) : List Delta :=
  if Text.trim e.data.toList = "[DONE]".toList then []
  else
    match chunkDecoder.ofText e.data.toList with
    | .ok chunk => chunk.deltas
    | .error _ => []

def deltas (items : List (Except Failure EventStream.Event)) : List (Except Failure Delta) :=
  items.flatMap fun
    | .ok e => (deltasOf e).map .ok
    | .error e => [.error e]

def ofReply (r : Http.Reply) : Except Failure (List (Except Failure Delta)) :=
  if r.isSuccess then .ok (deltas (EventStream.Events.ofSource r.body).toList)
  else
    let body := match Http.readBody r.body with
      | .ok bytes => String.ofList (Utf8.decode bytes)
      | .error _ => "unknown"
    .error (.completion ("HTTP " ++ Http.statusText r.status ++ ": " ++ body))

def complete (t : Http.Transport) (c : ModelConfig) (messages : List ChatMessage) :
    Except Failure (List (Except Failure Delta)) :=
  match (draft c messages).send t with
  | .error e => .error (.completion e)
  | .ok reply => ofReply reply

end Automation.Chat
