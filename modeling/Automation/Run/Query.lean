import Automation.Node.Query
import Automation.Run.Services

/-!
Running a node that asks a database.
-/

namespace Automation.QueryConfig

/-- The output for the outcome of a statement.  An insertion gives the row as it was stored. -/
def output (op : Operation) : SqlOutcome → Record
  | .rows rows =>
    match op with
    | .insert =>
      [("inserted", match rows with
        | row :: _ => .object row
        | [] => .bool true)]
    | _ => [("count", .ofNat rows.length), ("rows", .array (rows.map .object))]
  | .affected n =>
    match op with
    | .insert => [("inserted", .bool true)]
    | _ => [("rows_affected", .ofNat n)]

def plan (c : QueryConfig) (s : Services) (context : Context) : Plan :=
  match c.credential? with
  | none => .settled (.error (.configuration "database credential is required"))
  | some id =>
    match s.resolve .database id with
    | .error e => .settled (.error e)
    | .ok access =>
      match c.statement context.scope with
      | .error e => .settled (.error e)
      | .ok statement => .query access statement (output c.operation)

end Automation.QueryConfig
