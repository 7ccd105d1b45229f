import Automation.Instant
import Automation.Json.Decoder

/-!
The flow graph: nodes in order, edges between them by id, and declared variables.

Nodes and edges are lists, not sets: which trigger is the entry, which edge is followed first and
which declaration of a variable counts are all decided by order.
-/

namespace Automation

/-- Where a node stands in an editor. -/
structure Position where
  x : Double
  y : Double
deriving DecidableEq

def Position.origin : Position := ⟨.zero, .zero⟩

/-- A step of a flow.  What it does is named by `type` and configured by `data`. -/
structure Node where
  id : String
  type : String
  label : String
  position : Position
  data : Record

/-- A directed connection from one node to another, both by id.  `sourceHandle` names the branch of
the source it leaves from. -/
structure Edge where
  id : String
  source : String
  target : String
  sourceHandle : Option String
  targetHandle : Option String
  label : Option String
deriving DecidableEq

/-- The declared type of a variable.  It binds nothing. -/
inductive VariableType where
  | string
  | number
  | boolean
  | object
  | array
deriving DecidableEq

/-- A variable that every run of the flow starts with. -/
structure Variable where
  name : String
  value : Value
  type : VariableType

structure Flow where
  id : String
  agentId : String
  name : String
  description : String
  isActive : Bool
  nodes : List Node
  edges : List Edge
  declarations : List Variable
  createdAt : Option Instant
  updatedAt : Option Instant

namespace Node

/-- A node that is labelled with its id and not configured. -/
def new (id type : String) : Node := ⟨id, type, id, .origin, []⟩

def configure (n : Node) (key : String) (value : Value) : Node :=
  { n with data := n.data.insert key value }

def isTrigger (pfx : String) (n : Node) : Bool := pfx.toList.isPrefixOf n.type.toList

def displayName (n : Node) : String := if n.label.isEmpty then n.id else n.label

end Node

namespace Edge

/-- An edge that is followed whatever the branch. -/
def new (source target : String) : Edge :=
  ⟨source ++ "->" ++ target, source, target, none, none, none⟩

/-- An edge that leaves a branch of its source. -/
def fromHandle (source handle target : String) : Edge :=
  { new source target with sourceHandle := some handle }

end Edge

def VariableType.ofValue : Value → VariableType
  | .number _ => .number
  | .bool _ => .boolean
  | .object _ => .object
  | .array _ => .array
  | _ => .string

def Variable.new (name : String) (value : Value) : Variable := ⟨name, value, .ofValue value⟩

def Graph.leaving (edges : List Edge) (id : String) : List Edge := edges.filter fun e => e.source = id

namespace Flow

def defaultTriggerPrefix : String := "trigger_"

def node? (f : Flow) (id : String) : Option Node := f.nodes.find? fun n => n.id = id

def trigger? (f : Flow) (pfx : String) : Option Node := f.nodes.find? (Node.isTrigger pfx)

def outgoing (f : Flow) (id : String) : List Edge := Graph.leaving f.edges id

end Flow

/-! ## Wire format

A node, an edge or a variable is written out with its `fields` in declaration order, while as a value it
has them by key, like every record.
-/

open Json (Decoder Layout)

def Value.ofOption {α : Type} (encode : α → Value) : Option α → Value
  | some x => encode x
  | none => .null

/-- A member that is left out when there is nothing to write. -/
def Record.optional {α : Type} (key : String) (encode : α → Value) : Option α → Record
  | some x => [(key, encode x)]
  | none => []

namespace Instant

def decoder : Decoder Instant :=
  .textWith "an RFC 3339 formatted date and time string" fun s =>
    (ofLooseText? s.toList).mapError fun e => .custom e.message

def encode (t : Instant) : Value := .ofText t.text

end Instant

namespace Position

def layout := Layout.required "x" Decoder.double <| .required "y" Decoder.double .nil

def decoder : Decoder Position := layout.decoder "Position" fun (x, y, ()) => ⟨x, y⟩

def encode (p : Position) : Value := .object [("x", .ofDouble p.x), ("y", .ofDouble p.y)]

end Position

namespace Node

def layout :=
  Layout.required "id" Decoder.text <| .required "type" Decoder.text <|
  .optional "label" Decoder.text "" <| .optional "position" Position.decoder .origin <|
  .optional "data" Decoder.record [] .nil

def decoder : Decoder Node :=
  layout.decoder "Node" fun (id, type, label, position, data, ()) =>
    ⟨id, type, label, position, data⟩

/-- The members in declaration order. -/
def fields (n : Node) : List (String × Value) :=
  [("id", .string n.id), ("type", .string n.type), ("label", .string n.label),
    ("position", n.position.encode), ("data", .object n.data)]

def encode (n : Node) : Value := .object (Keyed.ofList n.fields)

end Node

namespace Edge

def layout :=
  Layout.optional "id" Decoder.text "" <| .required "source" Decoder.text <|
  .required "target" Decoder.text <| .optional "source_handle" (.option Decoder.text) none <|
  .optional "target_handle" (.option Decoder.text) none <|
  .optional "label" (.option Decoder.text) none .nil

def decoder : Decoder Edge :=
  layout.decoder "Edge" fun (id, source, target, sourceHandle, targetHandle, label, ()) =>
    ⟨id, source, target, sourceHandle, targetHandle, label⟩

def fields (e : Edge) : List (String × Value) :=
  ("id", .string e.id) :: ("source", .string e.source) :: ("target", .string e.target) ::
    (Record.optional "source_handle" .string e.sourceHandle ++
      (Record.optional "target_handle" .string e.targetHandle ++
        Record.optional "label" .string e.label))

def encode (e : Edge) : Value := .object (Keyed.ofList e.fields)

end Edge

namespace VariableType

def names : List (String × VariableType) :=
  [("string", .string), ("number", .number), ("boolean", .boolean), ("object", .object),
    ("array", .array)]

def name : VariableType → String
  | .string => "string"
  | .number => "number"
  | .boolean => "boolean"
  | .object => "object"
  | .array => "array"

theorem lookup_name (t : VariableType) : names.lookup t.name = some t := by
  cases t <;> rfl

end VariableType

namespace Variable

def layout :=
  Layout.required "name" Decoder.text <| .optional "value" Decoder.any .null <|
  .optional "type" (.variant VariableType.names none) .string .nil

def decoder : Decoder Variable :=
  layout.decoder "Variable" fun (name, value, type, ()) => ⟨name, value, type⟩

def fields (v : Variable) : List (String × Value) :=
  [("name", .string v.name), ("value", v.value), ("type", .string v.type.name)]

def encode (v : Variable) : Value := .object (Keyed.ofList v.fields)

end Variable

namespace Flow

def layout :=
  Layout.optional "id" Decoder.text "" <| .optional "agent_id" Decoder.text "" <|
  .required "name" Decoder.text <| .optional "description" Decoder.text "" <|
  .optional "is_active" Decoder.bool true <| .optional "nodes" (.list Node.decoder) [] <|
  .optional "edges" (.list Edge.decoder) [] <|
  .optional "variables" (.list Variable.decoder) [] <|
  .optional "created_at" (.option Instant.decoder) none <|
  .optional "updated_at" (.option Instant.decoder) none .nil

def decoder : Decoder Flow :=
  layout.decoder "Flow" fun (id, agentId, name, description, isActive, nodes, edges, declarations,
      createdAt, updatedAt, ()) =>
    ⟨id, agentId, name, description, isActive, nodes, edges, declarations, createdAt, updatedAt⟩

def encodeNodes (ns : List Node) : Value := .array (ns.map Node.encode)

def encodeEdges (es : List Edge) : Value := .array (es.map Edge.encode)

def encodeVariables (vs : List Variable) : Value := .array (vs.map Variable.encode)

/-- An empty description and absent timestamps are left out. -/
def encode (f : Flow) : Value :=
  .object (("agent_id", .string f.agentId) :: Record.optional "created_at" Instant.encode f.createdAt
    ++ (if f.description.isEmpty then [] else [("description", .string f.description)])
    ++ [("edges", encodeEdges f.edges), ("id", .string f.id), ("is_active", .bool f.isActive),
      ("name", .string f.name), ("nodes", encodeNodes f.nodes)]
    ++ Record.optional "updated_at" Instant.encode f.updatedAt
    ++ [("variables", encodeVariables f.declarations)])

def new (name : String) : Flow := ⟨"", "", name, "", true, [], [], [], none, none⟩

end Flow

end Automation
