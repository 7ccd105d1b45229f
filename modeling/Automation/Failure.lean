/-!
What can go wrong between reading a flow and finishing its run.

A `Failure` is a cause; `message` words it, `kind` says what a caller can do about it, and `causes`
lists what lies behind it.  A failure inside a node is wrapped with that node and keeps its kind.
-/

namespace Automation

inductive Failure where
  | configuration (message : String)
  | configNotFound (path : String)
  | validation (message : String)
  | nodeNotFound (id : String)
  | credentialNotFound (id : String)
  | flowNotFound (id : String)
  | noTrigger
  | cycle (id : String)
  | completion (message : String)
  | completionStream (message : String)
  | http (message : String)
  | database (message : String)
  | cancelled
  | inNode (id label : String) (cause : Failure)
  | io (message : String)
  | json (message : String)
deriving DecidableEq, Inhabited

namespace Failure

/-- What a caller can do about a failure. -/
inductive Kind where
  | configuration
  | notFound
  | externalCall
  | cancellation
  | noTrigger
  | cycle
deriving DecidableEq

def kind : Failure → Kind
  | configuration _ | configNotFound _ | validation _ | json _ => .configuration
  | nodeNotFound _ | credentialNotFound _ | flowNotFound _ => .notFound
  | completion _ | completionStream _ | http _ | database _ | io _ => .externalCall
  | cancelled => .cancellation
  | noTrigger => .noTrigger
  | cycle _ => .cycle
  | inNode _ _ cause => cause.kind

def message : Failure → String
  | configuration m => "Configuration error: " ++ m
  | configNotFound path => "Config file not found: " ++ path
  | validation m => "Flow validation failed: " ++ m
  | nodeNotFound id => "Node not found: " ++ id
  | credentialNotFound id => "Credential not found: " ++ id
  | flowNotFound id => "Flow not found: " ++ id
  | noTrigger => "No trigger node found"
  | cycle id => "Cycle detected at node: " ++ id
  | completion m => "LLM request failed: " ++ m
  | completionStream m => "LLM streaming error: " ++ m
  | http m => "HTTP request failed: " ++ m
  | database m => "Database error: " ++ m
  | cancelled => "Run cancelled"
  | inNode _ label cause => "Node " ++ label ++ " failed: " ++ cause.message
  | io m => "I/O error: " ++ m
  | json m => "JSON error: " ++ m

/-- The node in which a failure arose, if it has been wrapped with one. -/
def nodeId? : Failure → Option String
  | inNode id _ _ => some id
  | _ => none

/-- The texts of what lies behind a failure, the nearest first. -/
def causes : Failure → List String
  | inNode _ _ cause => cause.message :: cause.causes
  | io m | json m => [m]
  | _ => []

end Failure

end Automation
