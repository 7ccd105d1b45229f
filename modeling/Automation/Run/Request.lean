import Automation.Node.Request
import Automation.Run.Services

/-!
Running a node that makes an HTTP request.

Everything in the request that is text is interpolated, the strings inside a structured body each by
itself.  A credential adds its base to a relative URL, its header lines before those of the node, and
the line that signs in.
-/

namespace Automation.RequestConfig

def joinUrl (base path : List Char) : List Char :=
  (base.reverse.dropWhile (· = '/')).reverse ++ '/' :: path.dropWhile (· = '/')

/-- A URL, put below the base of a credential unless it is absolute. -/
def absoluteUrl (access : Option ApiAccess) (url : List Char) : List Char :=
  match access with
  | some access =>
    if Text.contains "://".toList url ∨ access.baseUrl.isEmpty then url
    else joinUrl access.baseUrl.toList url
  | none => url

/-- The header lines of the node.  Only strings are sent. -/
def ownHeaders (c : RequestConfig) (context : Context) : List Http.Header :=
  c.headers.filterMap fun (name, value) =>
    value.asString?.map fun s => (name, context.interpolate s)

def signIn (access : ApiAccess) : List Http.Header :=
  match access.authType with
  | .none => []
  | .bearer => [Http.bearer access.authValue]
  | .apiKey => [("X-API-Key", access.authValue)]
  | .basic =>
    match Text.splitOnce? ':' access.authValue.toList with
    | some (user, password) => [Http.basic (.ofList user) (.ofList password)]
    | none => [Http.basic access.authValue ""]

def queryText (context : Context) : Value → String
  | .string s => context.interpolate s
  | v => .ofList v.text

def bodyText (c : RequestConfig) (context : Context) : Option String :=
  match c.body with
  | none | some .null => none
  | some (.string s) => (some (context.interpolate s)).filter (!·.isEmpty)
  | some v => some (.ofList (Json.print (Template.interpolateValue context.scope v)))

def contentType : String := "Content-Type"

/-- Header lines, and the type of the body if there is a body of which they do not say it. -/
def withContentType (body : Option String) (headers : List Http.Header) : List Http.Header :=
  if body.isSome ∧ !headers.any fun h => Http.sameName h.1 contentType then
    headers ++ [(contentType, "application/json")]
  else headers

def draft (c : RequestConfig) (url : String) (access : Option ApiAccess) (default : Duration)
    (context : Context) : Http.Draft :=
  let body := c.bodyText context
  let headers := (access.map ApiAccess.headers).getD [] ++ c.ownHeaders context
  { method := c.verb
    url := .ofList (absoluteUrl access (context.interpolate url).toList)
    query := c.queryParams.map fun (k, v) => (k, queryText context v)
    headers := withContentType body headers ++ (access.map signIn).getD []
    body
    timeout := some (c.timeoutOr default) }

/-- The output for a response.  A body that is JSON is decoded. -/
def output (r : Http.Response) : Record :=
  [("body", r.value),
    ("headers", .object (r.headers.map fun (name, values) => (name, .array (values.map .string)))),
    ("status_code", .ofNat r.status)]

def access (c : RequestConfig) (s : Services) : Except Failure (Option ApiAccess) :=
  match c.credential? with
  | some id => (s.resolve .api id).map some
  | none => .ok none

def plan (c : RequestConfig) (s : Services) (context : Context) : Plan :=
  match c.url? with
  | none => .settled (.error (.configuration "URL is required for HTTP request"))
  | some url =>
    if Http.isMethod c.verb then
      match c.access s with
      | .error e => .settled (.error e)
      | .ok access => .request (c.draft url access s.config.engine.httpTimeout context) output
    else .settled (.error (.configuration "invalid HTTP method: invalid HTTP method"))

end Automation.RequestConfig
