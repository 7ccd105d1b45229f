import Automation.Graph.Validation
import Automation.Store.Row

/-!
The store: a table of flows and a table of credentials.

Rows stay in the order in which their ids came first.  Saving replaces a row but for the moment of its
creation.  What the store cannot know by itself comes with each save as a `Stamp`: the time, and an id
for what has none.
-/

namespace Automation

/-- What a save brings from outside. -/
structure Stamp where
  now : Instant
  /-- An id that nothing else has. -/
  fresh : String

structure Store where
  flows : List FlowRow
  credentials : List CredentialRow
deriving DecidableEq

namespace Store

def empty : Store := ⟨[], []⟩

/-- Puts a row in place of the one with its id, whose moment of creation stays, or at the end. -/
def putFlow (new : FlowRow) : List FlowRow → List FlowRow
  | [] => [new]
  | r :: rows =>
    if r.id = new.id then { new with createdAt := r.createdAt } :: rows else r :: putFlow new rows

def putCredential (new : CredentialRow) : List CredentialRow → List CredentialRow
  | [] => [new]
  | r :: rows =>
    if r.id = new.id then { new with createdAt := r.createdAt } :: rows
    else r :: putCredential new rows

/-! ## Flows -/

/-- A flow as it is saved: with an id, and with the moments of its creation and of this change. -/
def stampFlow (stamp : Stamp) (f : Flow) : Flow :=
  { f with
    id := if f.id.isEmpty then stamp.fresh else f.id
    createdAt := some (f.createdAt.getD stamp.now)
    updatedAt := some stamp.now }

/-- Saves a flow that is free of errors, and gives it as saved. -/
def saveFlow (triggerPrefix : String) (stamp : Stamp) (f : Flow) (s : Store) :
    Except Failure (Flow × Store) := do
  (f.validate triggerPrefix).toResult
  let row := FlowRow.ofFlow (stampFlow stamp f) (f.createdAt.getD stamp.now) stamp.now
  pure (stampFlow stamp f, { s with flows := putFlow row s.flows })

def flow (id : String) (s : Store) : Except Failure Flow :=
  match s.flows.find? fun r => r.id = id with
  | some r => r.flow
  | none => .error (.flowNotFound id)

/-- The order of flows: by the text of their creation, then by id. -/
def flowsInOrder (a b : FlowRow) : Bool :=
  a.createdAt < b.createdAt || (a.createdAt = b.createdAt && a.id ≤ b.id)

def flowsOf (agentId : String) (s : Store) : Except Failure (List Flow) :=
  ((s.flows.filter fun r => r.agentId = agentId).mergeSort flowsInOrder).mapM FlowRow.flow

/-! ## Credentials -/

def stampCredential (stamp : Stamp) (c : Credential) : Credential :=
  { c with
    id := if c.id.isEmpty then stamp.fresh else c.id
    createdAt := some (c.createdAt.getD stamp.now)
    updatedAt := some stamp.now }

def saveCredential (stamp : Stamp) (c : Credential) (s : Store) : Credential × Store :=
  let row := CredentialRow.ofCredential (stampCredential stamp c) (c.createdAt.getD stamp.now)
    stamp.now
  (stampCredential stamp c, { s with credentials := putCredential row s.credentials })

def credential (id : String) (s : Store) : Except Failure Credential :=
  match s.credentials.find? fun r => r.id = id with
  | some r => r.credential
  | none => .error (.credentialNotFound id)

/-- The credentials of an agent by name, and of one name the first saved first. -/
def credentialsOf (agentId : String) (s : Store) : Except Failure (List Credential) :=
  ((s.credentials.filter fun r => r.agentId = agentId).mergeSort fun a b => a.name ≤ b.name).mapM
    CredentialRow.credential

/-! ## Writes by others -/

def overwriteRows {ρ : Type} (idOf : ρ → String) (id : String) (write : ρ → Option ρ)
    (rows : List ρ) : Option (Nat × List ρ) := do
  let changed ← rows.mapM fun r => if idOf r = id then write r else some r
  some (rows.countP fun r => idOf r = id, changed)

/-- Writes a text to a column of the rows of an id, as anybody may who has the file. -/
def overwrite? (table column id text : String) (s : Store) : Option (Nat × Store) :=
  match table with
  | "flows" =>
    (overwriteRows FlowRow.id id (FlowRow.write? column text) s.flows).map fun (n, rows) =>
      (n, { s with flows := rows })
  | "credentials" =>
    (overwriteRows CredentialRow.id id (CredentialRow.write? column text) s.credentials).map
      fun (n, rows) => (n, { s with credentials := rows })
  | _ => none

end Store

end Automation
