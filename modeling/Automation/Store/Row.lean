import Automation.Credential
import Automation.Database.Cell

/-!
Flows and credentials as rows.

A row holds what a table of the store holds: texts, and one truth value as a cell.  The lists of a flow
are JSON and its moments RFC 3339, so a row read back is the flow that was written, unless somebody
else wrote to the table.
-/

namespace Automation

open Json (Decoder)

structure FlowRow where
  id : String
  agentId : String
  name : String
  description : String
  isActive : Database.Cell
  nodes : String
  edges : String
  declarations : String
  createdAt : String
  updatedAt : String
deriving DecidableEq

structure CredentialRow where
  id : String
  agentId : String
  name : String
  type : String
  config : String
  createdAt : String
  updatedAt : String
deriving DecidableEq

def Instant.column (t : Instant) : String := .ofList t.offsetText

def Instant.ofColumn? (s : String) : Option Instant :=
  match Instant.ofText? s.toList with
  | .ok t => some t
  | .error _ => none

namespace FlowRow

/-- The text of a list whose items are written out with their members in the order of `fields`. -/
def column {α : Type} (fields : α → List (String × Value)) (items : List α) : String :=
  .ofList (Json.print (.array (items.map fun x => .object (fields x))))

def ofFlow (f : Flow) (created updated : Instant) : FlowRow where
  id := f.id
  agentId := f.agentId
  name := f.name
  description := f.description
  isActive := .integer (if f.isActive then 1 else 0)
  nodes := column Node.fields f.nodes
  edges := column Edge.fields f.edges
  declarations := column Variable.fields f.declarations
  createdAt := created.column
  updatedAt := updated.column

/-- What a column is found to be that was expected to hold a truth value. -/
def className : Database.Cell → String
  | .null => "Null"
  | .integer _ => "Integer"
  | .real _ => "Real"
  | .text _ => "Text"
  | .blob _ => "Blob"

/-- The truth value in a column: any integer but zero counts. -/
def active : Database.Cell → Except Failure Bool
  | .integer n => .ok (n ≠ 0)
  | c => .error (.database
      ("Invalid column type " ++ className c ++ " at index: 4, name: is_active"))

def items {α : Type} (d : Decoder α) (column : String) : Except Failure (List α) :=
  ((Decoder.list d).ofText column.toList).mapError fun e => .json e.message

def flow (r : FlowRow) : Except Failure Flow := do
  let isActive ← active r.isActive
  let nodes ← items Node.decoder r.nodes
  let edges ← items Edge.decoder r.edges
  let declarations ← items Variable.decoder r.declarations
  pure ⟨r.id, r.agentId, r.name, r.description, isActive, nodes, edges, declarations,
    Instant.ofColumn? r.createdAt, Instant.ofColumn? r.updatedAt⟩

def write? (column : String) (text : String) (r : FlowRow) : Option FlowRow :=
  match column with
  | "id" => some { r with id := text }
  | "agent_id" => some { r with agentId := text }
  | "name" => some { r with name := text }
  | "description" => some { r with description := text }
  | "is_active" => some { r with isActive := (Database.Cell.text text.toList).numeric }
  | "nodes" => some { r with nodes := text }
  | "edges" => some { r with edges := text }
  | "variables" => some { r with declarations := text }
  | "created_at" => some { r with createdAt := text }
  | "updated_at" => some { r with updatedAt := text }
  | _ => none

end FlowRow

namespace CredentialRow

def ofCredential (c : Credential) (created updated : Instant) : CredentialRow :=
  ⟨c.id, c.agentId, c.name, c.type.name, c.config, created.column, updated.column⟩

def credential (r : CredentialRow) : Except Failure Credential := do
  let type ← ((Decoder.variant CredentialType.names none).ofValue (.string r.type)).mapError
    fun e => Failure.json e.message
  pure ⟨r.id, r.agentId, r.name, type, r.config, Instant.ofColumn? r.createdAt,
    Instant.ofColumn? r.updatedAt⟩

def write? (column : String) (text : String) (r : CredentialRow) : Option CredentialRow :=
  match column with
  | "id" => some { r with id := text }
  | "agent_id" => some { r with agentId := text }
  | "name" => some { r with name := text }
  | "type" => some { r with type := text }
  | "config" => some { r with config := text }
  | "created_at" => some { r with createdAt := text }
  | "updated_at" => some { r with updatedAt := text }
  | _ => none

end CredentialRow

end Automation
