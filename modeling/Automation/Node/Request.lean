import Automation.Duration
import Automation.Node.Basic
import Automation.Text.Upper

/-!
Configuration of a node that makes an HTTP request.
-/

namespace Automation

/-- A node that makes an HTTP request.  The timeout is in seconds. -/
structure RequestConfig where
  method : Option String
  url : Option String
  headers : Record
  queryParams : Record
  body : Option Value
  timeout : Option Double
  credentialId : Option String

namespace RequestConfig

open Json (Decoder Layout)

def layout :=
  Layout.optional "method" (.option Decoder.text) none <|
  .optional "url" (.option Decoder.text) none <|
  .optional "headers" Decoder.record [] <|
  .optional "query_params" Decoder.record [] <|
  .optional "body" (.option Decoder.any) none <|
  .optional "timeout" (.option Decoder.double) none <|
  .optional "credential_id" (.option Decoder.text) none .nil

def decoder : Decoder RequestConfig :=
  layout.decoder "HttpRequestConfig" fun (method, url, headers, queryParams, body, timeout,
      credentialId, ()) =>
    ⟨method, url, headers, queryParams, body, timeout, credentialId⟩

def encode (c : RequestConfig) : Value :=
  .object [("body", .ofOption id c.body), ("credential_id", .ofOption .string c.credentialId),
    ("headers", .object c.headers), ("method", .ofOption .string c.method),
    ("query_params", .object c.queryParams), ("timeout", .ofOption .ofDouble c.timeout),
    ("url", .ofOption .string c.url)]

/-- The method in upper case, `GET` where none is set. -/
def verb (c : RequestConfig) : String :=
  match present c.method with
  | some m => .ofList (Text.upper m.toList)
  | none => "GET"

def url? (c : RequestConfig) : Option String := present c.url

def credential? (c : RequestConfig) : Option String := present c.credentialId

/-- The node's own timeout where it is a positive span of time, and else the default. -/
def timeoutOr (c : RequestConfig) (default : Duration) : Duration :=
  match c.timeout with
  | some secs => if Binary.zero.lt secs then (Duration.ofFloat? secs).getD default else default
  | none => default

def maxTimeout : Nat := 86400

def check (c : RequestConfig) : Except Complaint Unit := do
  if c.url?.isNone then .error "URL is required for HTTP request"
  if !c.verb.toList.all Char.isAlpha then .error ("invalid HTTP method '" ++ c.verb ++ "'")
  if let some secs := c.timeout then
    if !secs.isFinite ∨ (Binary.ofInt .double maxTimeout).lt secs then
      .error ("timeout must be at most " ++ toString maxTimeout ++ " seconds")

end RequestConfig

end Automation
