import Automation.Store.Basic

/-!
The text of a store: its rows as JSON, each an object by column.
-/

namespace Automation

open Json (Decoder Layout)

namespace FlowRow

def layout :=
  Layout.required "id" Decoder.text <| .required "agent_id" Decoder.text <|
  .required "name" Decoder.text <| .required "description" Decoder.text <|
  .required "is_active" Decoder.any <| .required "nodes" Decoder.text <|
  .required "edges" Decoder.text <| .required "variables" Decoder.text <|
  .required "created_at" Decoder.text <| .required "updated_at" Decoder.text .nil

def decoder : Decoder FlowRow :=
  layout.decoder "FlowRow" fun (id, agentId, name, description, isActive, nodes, edges, declarations,
      createdAt, updatedAt, ()) =>
    ⟨id, agentId, name, description, .ofValue isActive, nodes, edges, declarations, createdAt,
      updatedAt⟩

def encode (r : FlowRow) : Value :=
  .object [("agent_id", .string r.agentId), ("created_at", .string r.createdAt),
    ("description", .string r.description), ("edges", .string r.edges), ("id", .string r.id),
    ("is_active", r.isActive.value), ("name", .string r.name), ("nodes", .string r.nodes),
    ("updated_at", .string r.updatedAt), ("variables", .string r.declarations)]

end FlowRow

namespace CredentialRow

def layout :=
  Layout.required "id" Decoder.text <| .required "agent_id" Decoder.text <|
  .required "name" Decoder.text <| .required "type" Decoder.text <|
  .required "config" Decoder.text <| .required "created_at" Decoder.text <|
  .required "updated_at" Decoder.text .nil

def decoder : Decoder CredentialRow :=
  layout.decoder "CredentialRow" fun (id, agentId, name, type, config, createdAt, updatedAt, ()) =>
    ⟨id, agentId, name, type, config, createdAt, updatedAt⟩

def encode (r : CredentialRow) : Value :=
  .object [("agent_id", .string r.agentId), ("config", .string r.config),
    ("created_at", .string r.createdAt), ("id", .string r.id), ("name", .string r.name),
    ("type", .string r.type), ("updated_at", .string r.updatedAt)]

end CredentialRow

namespace Store

def layout :=
  Layout.required "flows" (.list FlowRow.decoder) <|
  .required "credentials" (.list CredentialRow.decoder) .nil

def decoder : Decoder Store := layout.decoder "Store" fun (flows, credentials, ()) =>
  ⟨flows, credentials⟩

def text (s : Store) : List Char :=
  Json.print (.object [("credentials", .array (s.credentials.map CredentialRow.encode)),
    ("flows", .array (s.flows.map FlowRow.encode))])

def ofText? (s : List Char) : Option Store := (decoder.ofText s).toOption

end Store

end Automation
