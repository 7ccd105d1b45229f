import Automation.Database.Execution
import Automation.Store.Basic

/-!
A store as a database.

A statement that is run on the file of a store finds its two tables.  Besides its columns a row has a
number, which tells when its id came first and which `*` leaves out.
-/

namespace Automation

open Database (Cell Table Tables)

namespace FlowRow

def columns : List String :=
  ["id", "agent_id", "name", "description", "is_active", "nodes", "edges", "variables", "created_at",
    "updated_at"]

def cells (r : FlowRow) : List Cell :=
  [.text r.id.toList, .text r.agentId.toList, .text r.name.toList, .text r.description.toList,
    r.isActive, .text r.nodes.toList, .text r.edges.toList, .text r.declarations.toList,
    .text r.createdAt.toList, .text r.updatedAt.toList]

end FlowRow

namespace CredentialRow

def columns : List String :=
  ["id", "agent_id", "name", "type", "config", "created_at", "updated_at"]

def cells (r : CredentialRow) : List Cell :=
  [.text r.id.toList, .text r.agentId.toList, .text r.name.toList, .text r.type.toList,
    .text r.config.toList, .text r.createdAt.toList, .text r.updatedAt.toList]

end CredentialRow

namespace Store

/-- A table of a store, its rows numbered from one. -/
def table (name : String) (columns : List String) (rows : List (List Cell)) : Table where
  name := name.toList
  keyColumn := "rowid".toList
  columns := columns.map String.toList
  rows := rows.zipIdx.map fun (cells, i) => ⟨i + 1, cells⟩
  showsKey := false

def tables (s : Store) : Tables :=
  [table "flows" FlowRow.columns (s.flows.map FlowRow.cells),
    table "credentials" CredentialRow.columns (s.credentials.map CredentialRow.cells)]

end Store

end Automation
