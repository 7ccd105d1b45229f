import Automation.Graph.Cycle
import Automation.Node.Config

/-!
Checking a flow before it is saved: its ids, the ends of its edges, its triggers, the configuration of
each node, and that it has no cycle.
-/

namespace Automation

/-- A finding about a flow or one of its nodes. -/
structure Issue where
  nodeId : Option String
  message : String
deriving DecidableEq

namespace Issue

def text (i : Issue) : String :=
  match i.nodeId with
  | some id => "[" ++ id ++ "] " ++ i.message
  | none => i.message

end Issue

/-- What was found: errors, which forbid saving, and warnings. -/
structure Report where
  errors : List Issue
  warnings : List Issue
deriving DecidableEq

namespace Report

def isValid (r : Report) : Bool := r.errors.isEmpty

def toResult (r : Report) : Except Failure Unit :=
  if r.errors.isEmpty then .ok ()
  else .error (.validation ("; ".intercalate (r.errors.map Issue.text)))

end Report

namespace Flow

/-- The elements of a list that came up before, once for each time they come up again. -/
def repeated (seen : List String) : List String → List String
  | [] => []
  | x :: r => if seen.contains x then x :: repeated seen r else repeated (x :: seen) r

def nodeIds (f : Flow) : List String := f.nodes.map Node.id

def duplicateIssues (f : Flow) : List Issue :=
  (repeated [] f.nodeIds).map fun id => ⟨some id, "duplicate node id"⟩

/-- The ends of an edge that are no ids of nodes, the source first. -/
def unknownEnds (f : Flow) (e : Edge) : List String :=
  [e.source, e.target].filter fun id => !f.nodeIds.contains id

def edgeIssues (f : Flow) : List Issue :=
  f.edges.flatMap fun e => (f.unknownEnds e).map fun id =>
    ⟨none, "edge " ++ e.source ++ " -> " ++ e.target ++ " references unknown node '" ++ id ++ "'"⟩

def triggerIds (f : Flow) (pfx : String) : List String :=
  (f.nodes.filter (Node.isTrigger pfx)).map Node.id

def triggerIssues (f : Flow) (pfx : String) : List Issue :=
  if (f.triggerIds pfx).isEmpty then [⟨none, "flow has no trigger node"⟩] else []

def triggerWarnings (f : Flow) (pfx : String) : List Issue :=
  match f.triggerIds pfx with
  | first :: _ :: rest =>
    [⟨none, "flow has " ++ toString (rest.length + 2) ++ " trigger nodes; '" ++ first
      ++ "' is the entry point"⟩]
  | _ => []

def configIssues (f : Flow) (pfx : String) : List Issue :=
  f.nodes.filterMap fun n =>
    match NodeConfig.ofNode n pfx with
    | .ok _ => none
    | .error e => some ⟨some n.id, e.message⟩

def configWarnings (f : Flow) (pfx : String) : List Issue :=
  f.nodes.filterMap fun n =>
    match NodeConfig.ofNode n pfx with
    | .ok (.unknown type) =>
      some ⟨some n.id, "unknown node type '" ++ type ++ "' will pass variables through"⟩
    | _ => none

def cycleIssues (f : Flow) : List Issue :=
  match f.findCycle? f.nodeIds with
  | some id => [⟨some id, "cycle detected"⟩]
  | none => []

/-- Checks the structure of a flow and the configuration of every node. -/
def validate (f : Flow) (triggerPrefix : String) : Report where
  errors := f.duplicateIssues ++ f.edgeIssues ++ f.triggerIssues triggerPrefix
    ++ f.configIssues triggerPrefix ++ f.cycleIssues
  warnings := f.triggerWarnings triggerPrefix ++ f.configWarnings triggerPrefix

end Flow

end Automation
