import Automation.Duration
import Automation.Http.Url
import Automation.Text.Base64

/-!
HTTP requests.

A `Draft` holds what somebody asks for, all of it text.  `Draft.toRequest` makes a request of it that
can be sent: with a URL of the web, header lines that can be written, and the user of the URL moved
into a header.
-/

namespace Automation.Http

abbrev Header := String × String

structure Draft where
  method : String
  url : String
  query : List (String × String)
  headers : List Header
  body : Option String
  timeout : Option Duration
deriving DecidableEq

structure Request where
  method : String
  url : Url
  headers : List Header
  body : Option String
  timeout : Option Duration
deriving DecidableEq

inductive DraftError where
  | badUrl
  | badHeader
  /-- A URL that leads to no host, or not through HTTP. -/
  | badScheme (url : Url)
deriving DecidableEq

def DraftError.message : DraftError → String
  | .badUrl | .badHeader => "builder error"
  | .badScheme url => "builder error for url (" ++ .ofList url.text ++ ")"

def sameName (a b : String) : Bool := a.toList.map Char.toLower = b.toList.map Char.toLower

def isNameChar (c : Char) : Bool := c.isAlphanum || "!#$%&'*+-.^_`|~".toList.contains c

def isName (s : String) : Bool := !s.isEmpty && s.toList.all isNameChar

/-- A method is made of what the name of a header is made of. -/
def isMethod (s : String) : Bool := isName s

/-- The value of a header may hold no controls but tabs. -/
def isHeaderValue (s : String) : Bool :=
  s.toList.all fun c => (0x20 ≤ c.toNat && c.toNat ≠ 0x7F) || c = '\t'

def isHeader (h : Header) : Bool := isName h.1 && isHeaderValue h.2

def bearer (token : String) : Header := ("Authorization", "Bearer " ++ token)

def basic (user password : String) : Header :=
  ("Authorization",
    "Basic " ++ .ofList (Base64.encode (Utf8.encode (user ++ ":" ++ password).toList)))

def percentText? (s : List Char) : Option (List Char) :=
  let bytes := Percent.decode s
  let text := Utf8.decode bytes
  if Utf8.encode text = bytes then some text else none

def Url.takeUser (u : Url) : Option Header × Url :=
  match percentText? u.user with
  | none => (none, u)
  | some user =>
    let password := u.password.bind percentText?
    if user.isEmpty ∧ password.isNone then (none, u)
    else
      (some (basic (.ofList user) (.ofList (password.getD []))),
        { u with user := [], password := none })

def isHttp (u : Url) : Bool := u.scheme = "http".toList || u.scheme = "https".toList

/-- Makes a request of a draft.  A URL that cannot be read comes before a header that cannot be
written, and that before a scheme that leads elsewhere. -/
def Draft.toRequest (d : Draft) : Except DraftError Request :=
  match Url.ofText? d.url.toList with
  | none => .error .badUrl
  | some url =>
    if !url.hasHost then .error (.badScheme url)
    else
      let (signIn, url) := url.takeUser
      let url := url.addQuery (d.query.map fun (k, v) => (k.toList, v.toList))
      if !d.headers.all isHeader then .error .badHeader
      else if !isHttp url then .error (.badScheme url)
      else .ok ⟨d.method, url, signIn.toList ++ d.headers, d.body, d.timeout⟩

end Automation.Http
