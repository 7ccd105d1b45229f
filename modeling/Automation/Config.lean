import Automation.Credential
import Automation.Duration

/-!
Settings: of the engine, of the language model and of the store, each with a default.
-/

namespace Automation

open Json (Decoder Layout)

inductive FanOut where
  /-- The run ends with the first failure. -/
  | abortAll
  /-- The branch is given up and the others go on. -/
  | continueSiblings
deriving DecidableEq

namespace FanOut

def names : List (String × FanOut) :=
  [("abort_all", .abortAll), ("continue_siblings", .continueSiblings)]

def name : FanOut → String
  | .abortAll => "abort_all"
  | .continueSiblings => "continue_siblings"

end FanOut

structure EngineConfig where
  fanOut : FanOut
  httpTimeoutSecs : Nat
  maxDelaySecs : Nat
  triggerPrefix : String
deriving DecidableEq

/-- The longest time in seconds that a node may wait, whatever the settings say. -/
def maxDelaySeconds : Nat := 300

/-- The single-precision number nearest to seven tenths. -/
def defaultTemperature : Single := Decimal.toBinary .single false ⟨7, -1⟩

structure LlmConfig where
  provider : String
  defaultModel : String
  defaultSystemPrompt : String
  maxTokens : Nat
  temperature : Single
  baseUrl : Option String
deriving DecidableEq

structure StoreConfig where
  path : String
deriving DecidableEq

structure AppConfig where
  engine : EngineConfig
  llm : LlmConfig
  store : StoreConfig
deriving DecidableEq

/-- A single-precision number as the double that its shortest text spells. -/
def Value.ofSingle : Single → Value
  | .finite negative size => .ofDouble (size.shortest.toBinary .double negative)
  | _ => .null

namespace EngineConfig

def default : EngineConfig := ⟨.abortAll, 30, maxDelaySeconds, Flow.defaultTriggerPrefix⟩

def layout :=
  Layout.optional "fan_out" (.variant FanOut.names none) default.fanOut <|
  .optional "http_timeout_secs" Decoder.u64 default.httpTimeoutSecs <|
  .optional "max_delay_secs" Decoder.u64 default.maxDelaySecs <|
  .optional "trigger_prefix" Decoder.text default.triggerPrefix .nil

def decoder : Decoder EngineConfig :=
  layout.decoder "EngineConfig" fun (fanOut, httpTimeoutSecs, maxDelaySecs, triggerPrefix, ()) =>
    ⟨fanOut, httpTimeoutSecs, maxDelaySecs, triggerPrefix⟩

def encode (c : EngineConfig) : Value :=
  .object [("fan_out", .string c.fanOut.name), ("http_timeout_secs", .ofNat c.httpTimeoutSecs),
    ("max_delay_secs", .ofNat c.maxDelaySecs), ("trigger_prefix", .string c.triggerPrefix)]

/-- The longest time in seconds that a node may wait.  Settings can only shorten it. -/
def delayLimit (c : EngineConfig) : Nat := min c.maxDelaySecs maxDelaySeconds

def httpTimeout (c : EngineConfig) : Duration := .ofSeconds c.httpTimeoutSecs

end EngineConfig

namespace LlmConfig

def default : LlmConfig where
  provider := "openai"
  defaultModel := "gpt-4o-mini"
  defaultSystemPrompt :=
    "You are a helpful assistant. Respond concisely and helpfully to user messages."
  maxTokens := 500
  temperature := defaultTemperature
  baseUrl := none

def layout :=
  Layout.optional "provider" Decoder.text default.provider <|
  .optional "default_model" Decoder.text default.defaultModel <|
  .optional "default_system_prompt" Decoder.text default.defaultSystemPrompt <|
  .optional "max_tokens" Decoder.u32 default.maxTokens <|
  .optional "temperature" Decoder.single default.temperature <|
  .optional "base_url" (.option Decoder.text) none .nil

def decoder : Decoder LlmConfig :=
  layout.decoder "LlmConfig" fun (provider, defaultModel, defaultSystemPrompt, maxTokens,
      temperature, baseUrl, ()) =>
    ⟨provider, defaultModel, defaultSystemPrompt, maxTokens, temperature, baseUrl⟩

def encode (c : LlmConfig) : Value :=
  .object [("base_url", .ofOption .string c.baseUrl), ("default_model", .string c.defaultModel),
    ("default_system_prompt", .string c.defaultSystemPrompt), ("max_tokens", .ofNat c.maxTokens),
    ("provider", .string c.provider), ("temperature", .ofSingle c.temperature)]

def checkProvider (c : LlmConfig) : Except Failure Unit :=
  if c.provider = "openai" ∨ c.provider = "openai_compatible" then .ok ()
  else .error (.configuration ("unsupported LLM provider '" ++ c.provider ++ "'"))

end LlmConfig

namespace StoreConfig

def default : StoreConfig := ⟨"~/.flowrun/flows.db"⟩

def layout := Layout.optional "path" Decoder.text default.path .nil

def decoder : Decoder StoreConfig := layout.decoder "StoreConfig" fun (path, ()) => ⟨path⟩

def encode (c : StoreConfig) : Value := .object [("path", .string c.path)]

end StoreConfig

namespace AppConfig

def default : AppConfig := ⟨.default, .default, .default⟩

def layout :=
  Layout.optional "engine" EngineConfig.decoder .default <|
  .optional "llm" LlmConfig.decoder .default <|
  .optional "store" StoreConfig.decoder .default .nil

def decoder : Decoder AppConfig :=
  layout.decoder "AppConfig" fun (engine, llm, store, ()) => ⟨engine, llm, store⟩

def encode (c : AppConfig) : Value :=
  .object [("engine", c.engine.encode), ("llm", c.llm.encode), ("store", c.store.encode)]

end AppConfig

structure ModelConfig where
  provider : String
  modelId : String
  apiKey : Option String
  baseUrl : Option String
  maxTokens : Nat
  temperature : Single
  extraHeaders : Keyed String
deriving DecidableEq

namespace ModelConfig

def new (modelId : String) : ModelConfig :=
  ⟨LlmConfig.default.provider, modelId, none, none, LlmConfig.default.maxTokens,
    LlmConfig.default.temperature, []⟩

def layout :=
  Layout.optional "provider" Decoder.text LlmConfig.default.provider <|
  .required "model_id" Decoder.text <|
  .optional "api_key" (.option Decoder.text) none <|
  .optional "base_url" (.option Decoder.text) none <|
  .optional "max_tokens" Decoder.u32 LlmConfig.default.maxTokens <|
  .optional "temperature" Decoder.single LlmConfig.default.temperature <|
  .optional "extra_headers" textsDecoder [] .nil

def decoder : Decoder ModelConfig :=
  layout.decoder "ModelConfig" fun (provider, modelId, apiKey, baseUrl, maxTokens, temperature,
      extraHeaders, ()) =>
    ⟨provider, modelId, apiKey, baseUrl, maxTokens, temperature, extraHeaders⟩

def encode (c : ModelConfig) : Value :=
  .object [("api_key", .ofOption .string c.apiKey), ("base_url", .ofOption .string c.baseUrl),
    ("extra_headers", encodeTexts c.extraHeaders), ("max_tokens", .ofNat c.maxTokens),
    ("model_id", .string c.modelId), ("provider", .string c.provider),
    ("temperature", .ofSingle c.temperature)]

end ModelConfig

end Automation
