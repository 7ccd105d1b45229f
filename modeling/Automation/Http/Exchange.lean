import Automation.EventStream.Source
import Automation.Http.Request
import Automation.Json.Decoder

/-!
Sending a request and taking the reply.

A reply has its status and its headers at once; its body is a source of bytes that may still break.
-/

namespace Automation.Http

/-- A reply.  Header names are in lower case. -/
structure Reply where
  status : Nat
  headers : List (String × List UInt8)
  body : EventStream.Source

inductive Sent where
  | replied (reply : Reply)
  /-- Nobody answered, or not in time. -/
  | failed

abbrev Transport := Request → Sent

def Transport.unreachable : Transport := fun _ => .failed

def sendError (u : Url) : String := "error sending request for url (" ++ .ofList u.text ++ ")"

def Draft.send (d : Draft) (t : Transport) : Except String Reply :=
  match d.toRequest with
  | .error e => .error e.message
  | .ok request =>
    match t request with
    | .replied reply => .ok reply
    | .failed => .error (sendError request.url)

def readBody : EventStream.Source → Except String (List UInt8)
  | [] => .ok []
  | .nothingYet :: rest => readBody rest
  | .chunk bytes :: rest => (readBody rest).map (bytes ++ ·)
  | .broken message :: _ => .error message

namespace Reply

def isSuccess (r : Reply) : Bool := 200 ≤ r.status && r.status < 300

def headerValues (r : Reply) : Keyed (List String) :=
  r.headers.foldl (fun named (name, value) =>
    named.insert name (((named.get? name).getD []) ++ [.ofList (Utf8.decode value)])) []

end Reply

structure Response where
  status : Nat
  headers : Keyed (List String)
  body : List UInt8

/-- The body as a value: what it says as JSON, and else its text. -/
def Response.value (r : Response) : Value :=
  let text := Utf8.decode r.body
  match Json.parse text with
  | .ok v => if Utf8.encode text = r.body then v else .ofText text
  | .error _ => .ofText text

def Draft.fetch (d : Draft) (t : Transport) : Except Failure Response :=
  match d.send t with
  | .error e => .error (.http e)
  | .ok reply =>
    match readBody reply.body with
    | .error e => .error (.http ("failed to read response: " ++ e))
    | .ok body => .ok ⟨reply.status, reply.headerValues, body⟩

def reasons : List (Nat × String) :=
  [(100, "Continue"), (101, "Switching Protocols"), (102, "Processing"), (103, "Early Hints"),
    (200, "OK"), (201, "Created"), (202, "Accepted"), (203, "Non Authoritative Information"),
    (204, "No Content"), (205, "Reset Content"), (206, "Partial Content"), (207, "Multi-Status"),
    (208, "Already Reported"), (226, "IM Used"), (300, "Multiple Choices"),
    (301, "Moved Permanently"), (302, "Found"), (303, "See Other"), (304, "Not Modified"),
    (305, "Use Proxy"), (307, "Temporary Redirect"), (308, "Permanent Redirect"),
    (400, "Bad Request"), (401, "Unauthorized"), (402, "Payment Required"), (403, "Forbidden"),
    (404, "Not Found"), (405, "Method Not Allowed"), (406, "Not Acceptable"),
    (407, "Proxy Authentication Required"), (408, "Request Timeout"), (409, "Conflict"),
    (410, "Gone"), (411, "Length Required"), (412, "Precondition Failed"),
    (413, "Payload Too Large"), (414, "URI Too Long"), (415, "Unsupported Media Type"),
    (416, "Range Not Satisfiable"), (417, "Expectation Failed"), (418, "I'm a teapot"),
    (421, "Misdirected Request"), (422, "Unprocessable Entity"), (423, "Locked"),
    (424, "Failed Dependency"), (425, "Too Early"), (426, "Upgrade Required"),
    (428, "Precondition Required"), (429, "Too Many Requests"),
    (431, "Request Header Fields Too Large"), (451, "Unavailable For Legal Reasons"),
    (500, "Internal Server Error"), (501, "Not Implemented"), (502, "Bad Gateway"),
    (503, "Service Unavailable"), (504, "Gateway Timeout"), (505, "HTTP Version Not Supported"),
    (506, "Variant Also Negotiates"), (507, "Insufficient Storage"), (508, "Loop Detected"),
    (510, "Not Extended"), (511, "Network Authentication Required")]

def statusText (status : Nat) : String :=
  toString status ++ " " ++ ((reasons.lookup status).getD "<unknown status code>")

end Automation.Http
