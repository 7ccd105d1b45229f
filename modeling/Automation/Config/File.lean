import Automation.Config
import Automation.Toml.Reader

/-!
Settings as a file.

A file of settings is TOML with references to variables in it: `expandVariables` replaces them before
the text is read.  `AppConfig.toToml` writes settings the way they are read.
-/

namespace Automation

/-- A reference to a variable: its value, or the reference where there is none. -/
def variableText (env : String → Option String) (name : List Char) : List Char :=
  match env (.ofList name) with
  | some value => value.toList
  | none => ['$', '\x7b'] ++ name ++ ['\x7d']

/-- Replaces the references to variables in a text, each of which goes from `$` and an opening brace
to the next closing brace or the end.  `name` holds what has been read of a reference, in reverse. -/
def expandFrom (env : String → Option String) : (name : Option (List Char)) → List Char → List Char
  | none, '$' :: '{' :: s => expandFrom env (some []) s
  | none, c :: s => c :: expandFrom env none s
  | none, [] => []
  | some name, '}' :: s => variableText env name.reverse ++ expandFrom env none s
  | some name, c :: s => expandFrom env (some (c :: name)) s
  | some name, [] => variableText env name.reverse

def expandVariables (env : String → Option String) (s : List Char) : List Char :=
  expandFrom env none s

def referencesFrom : (name : Option (List Char)) → List Char → List String
  | none, '$' :: '{' :: s => referencesFrom (some []) s
  | none, _ :: s => referencesFrom none s
  | none, [] => []
  | some name, '}' :: s => .ofList name.reverse :: referencesFrom none s
  | some name, c :: s => referencesFrom (some (c :: name)) s
  | some name, [] => [.ofList name.reverse]

/-! ## Reading -/

open Toml (Item Entries)

namespace FanOut

def ofItem? : Item → Option FanOut := Item.variant? names

end FanOut

namespace EngineConfig

def ofItem? (item : Item) : Option EngineConfig := do
  let es ← item.fields? ["fan_out", "http_timeout_secs", "max_delay_secs", "trigger_prefix"]
  some {
    fanOut := ← es.read? "fan_out" FanOut.ofItem? default.fanOut
    httpTimeoutSecs :=
      ← es.read? "http_timeout_secs" (Item.natBelow? UInt64.size) default.httpTimeoutSecs
    maxDelaySecs := ← es.read? "max_delay_secs" (Item.natBelow? UInt64.size) default.maxDelaySecs
    triggerPrefix := ← es.read? "trigger_prefix" Item.string? default.triggerPrefix }

end EngineConfig

namespace LlmConfig

def ofItem? (item : Item) : Option LlmConfig := do
  let es ← item.fields? ["provider", "default_model", "default_system_prompt", "max_tokens",
    "temperature", "base_url"]
  some {
    provider := ← es.read? "provider" Item.string? default.provider
    defaultModel := ← es.read? "default_model" Item.string? default.defaultModel
    defaultSystemPrompt :=
      ← es.read? "default_system_prompt" Item.string? default.defaultSystemPrompt
    maxTokens := ← es.read? "max_tokens" (Item.natBelow? UInt32.size) default.maxTokens
    temperature := ← es.read? "temperature" (Item.binary? .single) default.temperature
    baseUrl := ← es.read? "base_url" (fun item => item.string?.map some) none }

end LlmConfig

namespace StoreConfig

def ofItem? (item : Item) : Option StoreConfig := do
  let es ← item.fields? ["path"]
  some { path := ← es.read? "path" Item.string? default.path }

/-- Where the store lies.  A path that starts with `~/` goes from the home directory, if there is
one, unless what follows is absolute. -/
def location (home : Option String) (c : StoreConfig) : String :=
  match Text.dropPrefix? ['~', '/'] c.path.toList, home with
  | some rest, some home =>
    if rest.head? = some '/' then .ofList rest
    else if home.isEmpty || home.toList.getLast? = some '/' then home ++ .ofList rest
    else home ++ "/" ++ .ofList rest
  | _, _ => c.path

end StoreConfig

namespace AppConfig

def ofEntries? (es : Entries) : Option AppConfig := do
  some {
    engine := ← es.read? "engine" EngineConfig.ofItem? .default
    llm := ← es.read? "llm" LlmConfig.ofItem? .default
    store := ← es.read? "store" StoreConfig.ofItem? .default }

/-- The settings that a text spells, with the variables in it replaced. -/
def ofText (env : String → Option String) (s : List Char) : Except Failure AppConfig :=
  match (Toml.read? (expandVariables env s)).bind ofEntries? with
  | some c => .ok c
  | none => .error (.configuration "the file does not spell settings in TOML")

/-- The settings in a file, of which either the text is known or that there is none. -/
def load (env : String → Option String) (path : String) (content : Option (List Char)) :
    Except Failure AppConfig :=
  match content with
  | some s => ofText env s
  | none => .error (.configNotFound path)

end AppConfig

/-! ## Writing -/

/-- How numbers are written in settings: with a point and never with an exponent. -/
def tomlNumber : Double → List Char
  | .finite negative size =>
    let text := size.text .plain negative
    if size.isWhole then text ++ ['.', '0'] else text
  | .infinite negative => (if negative then ['-'] else []) ++ ['i', 'n', 'f']
  | .nan => ['n', 'a', 'n']

namespace AppConfig

def assignment (key : String) (value : List Char) : List Char :=
  key.toList ++ [' ', '=', ' '] ++ value ++ ['\n']

/-- Settings as the text of a file.  The temperature is written as a double. -/
def toToml (c : AppConfig) : List Char :=
  let text (s : String) : List Char := Toml.quoted s.toList
  let nat (n : Nat) : List Char := Nat.toDigits 10 n
  ['[', 'e', 'n', 'g', 'i', 'n', 'e', ']', '\n']
    ++ assignment "fan_out" (text c.engine.fanOut.name)
    ++ assignment "http_timeout_secs" (nat c.engine.httpTimeoutSecs)
    ++ assignment "max_delay_secs" (nat c.engine.maxDelaySecs)
    ++ assignment "trigger_prefix" (text c.engine.triggerPrefix)
    ++ ['\n', '[', 'l', 'l', 'm', ']', '\n']
    ++ assignment "provider" (text c.llm.provider)
    ++ assignment "default_model" (text c.llm.defaultModel)
    ++ assignment "default_system_prompt" (text c.llm.defaultSystemPrompt)
    ++ assignment "max_tokens" (nat c.llm.maxTokens)
    ++ assignment "temperature" (tomlNumber (c.llm.temperature.convert .double))
    ++ (c.llm.baseUrl.map fun url => assignment "base_url" (text url)).getD []
    ++ ['\n', '[', 's', 't', 'o', 'r', 'e', ']', '\n']
    ++ assignment "path" (text c.store.path)

end AppConfig

end Automation
