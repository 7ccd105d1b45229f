import Automation.Node.Basic

/-!
Configuration of a node that runs one SQL operation.

Identifiers are held to a plain form (`isIdentifier`), so that quoting them is putting quotes around
them.  Free SQL text is taken by the raw operation only.
-/

namespace Automation

inductive Operation where
  | raw
  | select
  | insert
  | update
  | delete
deriving DecidableEq

namespace Operation

def names : List (String × Operation) :=
  [("raw", .raw), ("select", .select), ("insert", .insert), ("update", .update),
    ("delete", .delete)]

def name : Operation → String
  | .raw => "raw"
  | .select => "select"
  | .insert => "insert"
  | .update => "update"
  | .delete => "delete"

end Operation

inductive SqlOperator where
  | eq
  | ne
  | gt
  | lt
  | gte
  | lte
  | like
  | isNull
  | isNotNull
deriving DecidableEq

namespace SqlOperator

def names : List (String × SqlOperator) :=
  [("=", .eq), ("eq", .eq), ("!=", .ne), ("<>", .ne), ("ne", .ne), (">", .gt), ("gt", .gt),
    ("<", .lt), ("lt", .lt), (">=", .gte), ("gte", .gte), ("<=", .lte), ("lte", .lte),
    ("like", .like), ("is_null", .isNull), ("is_not_null", .isNotNull)]

def name : SqlOperator → String
  | .eq => "eq"
  | .ne => "ne"
  | .gt => "gt"
  | .lt => "lt"
  | .gte => "gte"
  | .lte => "lte"
  | .like => "like"
  | .isNull => "is_null"
  | .isNotNull => "is_not_null"

def sql : SqlOperator → String
  | .eq => "="
  | .ne => "<>"
  | .gt => ">"
  | .lt => "<"
  | .gte => ">="
  | .lte => "<="
  | .like => "LIKE"
  | .isNull => "IS NULL"
  | .isNotNull => "IS NOT NULL"

def takesValue : SqlOperator → Bool
  | .isNull | .isNotNull => false
  | _ => true

end SqlOperator

/-- A comparison of one column.  The predicates of a node all have to hold. -/
structure Predicate where
  column : String
  operator : SqlOperator
  value : Value

structure QueryConfig where
  credentialId : Option String
  operation : Operation
  table : Option String
  query : Option String
  columns : List String
  predicates : List Predicate
  values : Record
  limit : Option Nat

open Json (Decoder Layout)

namespace Predicate

def layout :=
  Layout.required "column" Decoder.text <|
  .optional "operator" (.variant SqlOperator.names none) .eq <|
  .optional "value" Decoder.any .null .nil

def decoder : Decoder Predicate :=
  layout.decoder "WherePredicate" fun (column, operator, value, ()) => ⟨column, operator, value⟩

def encode (p : Predicate) : Value :=
  .object [("column", .string p.column), ("operator", .string p.operator.name), ("value", p.value)]

/-- A list of predicates.  Null and blank text stand for none; other text is refused. -/
def listDecoder : Decoder (List Predicate) :=
  Decoder.refine Decoder.any fun
  | .null => .ok []
  | .string s =>
    if Text.allBlank s.toList then .ok []
    else .error (.custom
      "where must be a list of predicates; use the raw operation for SQL text")
  | v => ((Decoder.list decoder).ofValue v).mapError fun e => .custom e.message

end Predicate

def isNameStart (c : Char) : Bool := c.isAlpha || c = '_'

def isNameChar (c : Char) : Bool := c.isAlphanum || c = '_'

/-- A letter or an underscore, then letters, digits and underscores. -/
def isName : List Char → Bool
  | [] => false
  | c :: s => isNameStart c && s.all isNameChar

/-- A name, or two names with a point between them. -/
def isIdentifier (s : List Char) : Bool :=
  let parts := Text.split '.' s
  parts.length ≤ 2 && parts.all isName

def identifierComplaint (ident : String) : Complaint := "invalid identifier '" ++ ident ++ "'"

def checkIdentifier (ident : String) : Except Complaint Unit :=
  if isIdentifier ident.toList then .ok () else .error (identifierComplaint ident)

namespace QueryConfig

def layout :=
  Layout.optional "credential_id" (.option Decoder.text) none <|
  .required "operation" (.variant Operation.names none) <|
  .optional "table" (.option Decoder.text) none <|
  .optional "query" (.option Decoder.text) none <|
  .optional "columns" (.list Decoder.text) [] <|
  .optional "where" Predicate.listDecoder [] <|
  .optional "values" Decoder.record [] <|
  .optional "limit" (.option Decoder.u64) none .nil

def decoder : Decoder QueryConfig :=
  layout.decoder "DatabaseConfig" fun (credentialId, operation, table, query, columns, predicates,
      values, limit, ()) =>
    ⟨credentialId, operation, table, query, columns, predicates, values, limit⟩

def encode (c : QueryConfig) : Value :=
  .object [("columns", .array (c.columns.map .string)),
    ("credential_id", .ofOption .string c.credentialId), ("limit", .ofOption .ofNat c.limit),
    ("operation", .string c.operation.name), ("query", .ofOption .string c.query),
    ("table", .ofOption .string c.table), ("values", .object c.values),
    ("where", .array (c.predicates.map Predicate.encode))]

def credential? (c : QueryConfig) : Option String := present c.credentialId

def table? (c : QueryConfig) : Option String := present c.table

def check (c : QueryConfig) : Except Complaint Unit := do
  if c.credential?.isNone then .error "database credential is required"
  if c.operation = .raw then
    if (present c.query).isNone then .error "query required for raw operation"
  else
    match c.table? with
    | none => .error "table required"
    | some table =>
      checkIdentifier table
      c.columns.forM checkIdentifier
      c.values.keys.forM checkIdentifier
      c.predicates.forM fun p => checkIdentifier p.column
      match c.operation with
      | .insert => if c.values.isEmpty then .error "values required for insert"
      | .update =>
        if c.values.isEmpty then .error "values required for update"
        else if c.predicates.isEmpty then .error "where clause required for update and delete"
      | .delete =>
        if c.predicates.isEmpty then .error "where clause required for update and delete"
      | _ => pure ()

end QueryConfig

end Automation
