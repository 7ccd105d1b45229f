import Automation.Failure
import Automation.Flow

/-!
Credentials: what a node needs to reach an outside service, kept apart from the flow.

A credential names its type and holds its payload as JSON text, its fields in declaration order.  A
payload is decoded only as the type it was stored under.
-/

namespace Automation

inductive CredentialType where
  | database
  | openAi
  | smtp
  | customApi
  | googleSheets
  | serpApi
deriving DecidableEq

namespace CredentialType

def name : CredentialType → String
  | .database => "database"
  | .openAi => "openai"
  | .smtp => "smtp"
  | .customApi => "custom_api"
  | .googleSheets => "google_sheets"
  | .serpApi => "serp_api"

def names : List (String × CredentialType) :=
  [("database", .database), ("openai", .openAi), ("smtp", .smtp), ("custom_api", .customApi),
    ("google_sheets", .googleSheets), ("serp_api", .serpApi)]

theorem lookup_name (t : CredentialType) : names.lookup t.name = some t := by
  cases t <;> rfl

end CredentialType

/-- A stored credential.  `config` is the payload as JSON text. -/
structure Credential where
  id : String
  agentId : String
  name : String
  type : CredentialType
  config : String
  createdAt : Option Instant
  updatedAt : Option Instant
deriving DecidableEq

structure DatabaseAccess where
  host : String
  port : Nat
  database : String
  user : String
  password : String
  sslMode : String
deriving DecidableEq

structure ModelAccess where
  apiKey : String
  organization : Option String
  baseUrl : Option String
deriving DecidableEq

structure MailAccess where
  host : String
  port : Nat
  user : String
  password : String
  fromName : String
  fromEmail : String
  useTls : Bool
deriving DecidableEq

inductive AuthType where
  | none
  | basic
  | bearer
  | apiKey
deriving DecidableEq

structure ApiAccess where
  baseUrl : String
  headers : Keyed String
  authType : AuthType
  authValue : String
deriving DecidableEq

open Json (Decoder Layout)

namespace Credential

def layout :=
  Layout.optional "id" Decoder.text "" <| .required "agent_id" Decoder.text <|
  .required "name" Decoder.text <| .required "type" (.variant CredentialType.names none) <|
  .required "config" Decoder.text <|
  .optional "created_at" (.option Instant.decoder) none <|
  .optional "updated_at" (.option Instant.decoder) none .nil

def decoder : Decoder Credential :=
  layout.decoder "Credential" fun (id, agentId, name, type, config, createdAt, updatedAt, ()) =>
    ⟨id, agentId, name, type, config, createdAt, updatedAt⟩

def encode (c : Credential) : Value :=
  .object (("agent_id", .string c.agentId) :: ("config", .string c.config)
    :: Record.optional "created_at" Instant.encode c.createdAt
    ++ [("id", .string c.id), ("name", .string c.name), ("type", .string c.type.name)]
    ++ Record.optional "updated_at" Instant.encode c.updatedAt)

end Credential

/-- Texts by key; of two under one key the later counts. -/
def textsDecoder : Decoder (Keyed String) := fun r t =>
  (Decoder.members Decoder.text r t).map Keyed.ofList

def encodeTexts (texts : Keyed String) : Value :=
  .object (texts.map fun (k, s) => (k, .string s))

namespace DatabaseAccess

def layout :=
  Layout.optional "host" Decoder.text "" <| .optional "port" Decoder.u16 0 <|
  .required "database" Decoder.text <| .optional "user" Decoder.text "" <|
  .optional "password" Decoder.text "" <| .optional "ssl_mode" Decoder.text "" .nil

def decoder : Decoder DatabaseAccess :=
  layout.decoder "DatabaseCredential" fun (host, port, database, user, password, sslMode, ()) =>
    ⟨host, port, database, user, password, sslMode⟩

def encode (a : DatabaseAccess) : Value :=
  .object [("host", .string a.host), ("port", .ofNat a.port), ("database", .string a.database),
    ("user", .string a.user), ("password", .string a.password), ("ssl_mode", .string a.sslMode)]

end DatabaseAccess

namespace ModelAccess

def layout :=
  Layout.required "api_key" Decoder.text <|
  .optional "organization" (.option Decoder.text) none <|
  .optional "base_url" (.option Decoder.text) none .nil

def decoder : Decoder ModelAccess :=
  layout.decoder "OpenAiCredential" fun (apiKey, organization, baseUrl, ()) =>
    ⟨apiKey, organization, baseUrl⟩

def encode (a : ModelAccess) : Value :=
  .object (("api_key", .string a.apiKey) :: Record.optional "organization" .string a.organization
    ++ Record.optional "base_url" .string a.baseUrl)

end ModelAccess

namespace MailAccess

def layout :=
  Layout.required "host" Decoder.text <| .optional "port" Decoder.u16 587 <|
  .optional "user" Decoder.text "" <| .optional "password" Decoder.text "" <|
  .optional "from_name" Decoder.text "" <| .optional "from_email" Decoder.text "" <|
  .optional "use_tls" Decoder.bool false .nil

def decoder : Decoder MailAccess :=
  layout.decoder "SmtpCredential" fun (host, port, user, password, fromName, fromEmail, useTls, ()) =>
    ⟨host, port, user, password, fromName, fromEmail, useTls⟩

def encode (a : MailAccess) : Value :=
  .object [("host", .string a.host), ("port", .ofNat a.port), ("user", .string a.user),
    ("password", .string a.password), ("from_name", .string a.fromName),
    ("from_email", .string a.fromEmail), ("use_tls", .bool a.useTls)]

end MailAccess

namespace AuthType

def names : List (String × AuthType) :=
  [("none", .none), ("basic", .basic), ("bearer", .bearer), ("api_key", .apiKey)]

def name : AuthType → String
  | .none => "none"
  | .basic => "basic"
  | .bearer => "bearer"
  | .apiKey => "api_key"

end AuthType

namespace ApiAccess

def layout :=
  Layout.optional "base_url" Decoder.text "" <| .optional "headers" textsDecoder [] <|
  .optional "auth_type" (.variant AuthType.names none) .none <|
  .optional "auth_value" Decoder.text "" .nil

def decoder : Decoder ApiAccess :=
  layout.decoder "CustomApiCredential" fun (baseUrl, headers, authType, authValue, ()) =>
    ⟨baseUrl, headers, authType, authValue⟩

def encode (a : ApiAccess) : Value :=
  .object [("base_url", .string a.baseUrl), ("headers", encodeTexts a.headers),
    ("auth_type", .string a.authType.name), ("auth_value", .string a.authValue)]

end ApiAccess

/-- A kind of payload: the type it is stored under and how it is written and read. -/
structure Payload (α : Type) where
  type : CredentialType
  decoder : Decoder α
  encode : α → Value

namespace Payload

def database : Payload DatabaseAccess := ⟨.database, DatabaseAccess.decoder, DatabaseAccess.encode⟩

def model : Payload ModelAccess := ⟨.openAi, ModelAccess.decoder, ModelAccess.encode⟩

def mail : Payload MailAccess := ⟨.smtp, MailAccess.decoder, MailAccess.encode⟩

def api : Payload ApiAccess := ⟨.customApi, ApiAccess.decoder, ApiAccess.encode⟩

end Payload

namespace Credential

def new {α : Type} (id agentId : String) (p : Payload α) (payload : α) : Credential :=
  ⟨id, agentId, id, p.type, .ofList (Json.print (p.encode payload)), none, none⟩

/-- The payload of a credential that is stored under the type asked for. -/
def payload {α : Type} (p : Payload α) (c : Credential) : Except Failure α :=
  if c.type ≠ p.type then
    .error (.configuration ("credential '" ++ c.id ++ "' is of type " ++ c.type.name
      ++ ", expected " ++ p.type.name))
  else
    (p.decoder.ofText c.config.toList).mapError fun e =>
      .configuration ("invalid " ++ p.type.name ++ " credential '" ++ c.id ++ "': " ++ e.message)

end Credential

abbrev CredentialShelf := Keyed Credential

namespace CredentialShelf

def put (c : Credential) (s : CredentialShelf) : CredentialShelf := Keyed.insert c.id c s

def ofList (cs : List Credential) : CredentialShelf := cs.foldl (fun s c => put c s) []

def fetch (s : CredentialShelf) (id : String) : Except Failure Credential :=
  match Keyed.get? s id with
  | some c => .ok c
  | none => .error (.credentialNotFound id)

end CredentialShelf

end Automation
