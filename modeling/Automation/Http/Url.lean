import Automation.Http.Host

/-!
URLs in the one form in which they are sent and shown.

`ofText?` reads a URL by itself, without a base to which it could be relative, and brings its parts
into their written form: scheme and host in lower case, no default port, no `.` and `..` in the path,
and what may not stand for itself percent-encoded.  `text` writes the parts out.
-/

namespace Automation.Http

inductive Path where
  /-- A text without structure, as after `mailto:`. -/
  | plain (s : List Char)
  | segments (s : List (List Char))
deriving DecidableEq

structure Url where
  scheme : List Char
  user : List Char
  password : Option (List Char)
  host : Option (List Char)
  port : Option Nat
  path : Path
  query : Option (List Char)
  fragment : Option (List Char)
deriving DecidableEq

namespace Url

def webPorts : List (List Char × Nat) :=
  [("http".toList, 80), ("https".toList, 443), ("ws".toList, 80), ("wss".toList, 443),
    ("ftp".toList, 21)]

def isWeb (scheme : List Char) : Bool := (webPorts.lookup scheme).isSome

def isFile (scheme : List Char) : Bool := scheme = "file".toList

def isSchemeChar (c : Char) : Bool := c.isAlphanum || "+-.".toList.contains c

def takeScheme? (s : List Char) : Option (List Char × List Char) :=
  (Text.splitOnce? ':' s).bind fun (scheme, rest) =>
    match scheme with
    | c :: _ =>
      if c.isAlpha && scheme.all isSchemeChar then some (scheme.map Char.toLower, rest) else none
    | [] => none

def isSlash (scheme : List Char) (c : Char) : Bool :=
  c = '/' || (c = '\\' && (isWeb scheme || isFile scheme))

/-- Whether a segment stands for the directory itself; points may be encoded. -/
def isDot (s : List Char) : Bool := [".".toList, "%2e".toList].contains (s.map Char.toLower)

def isDotDot (s : List Char) : Bool :=
  ["..".toList, ".%2e".toList, "%2e.".toList, "%2e%2e".toList].contains (s.map Char.toLower)

/-- Adds segments to a path, from which `..` takes one off.  Where `.` or `..` comes last the path
ends in a slash. -/
def resolveDots (done : List (List Char)) : List (List Char) → List (List Char)
  | [] => done
  | s :: r =>
    let done := if isDotDot s then done.dropLast else done
    if isDotDot s || isDot s then
      if r.isEmpty then done ++ [[]] else resolveDots done r
    else resolveDots (done ++ [s]) r

def pathOf (scheme : List Char) (s : List Char) : Path :=
  let slashed := s.map fun c => if isSlash scheme c then '/' else c
  match slashed with
  | [] => .segments (if isWeb scheme || isFile scheme then [[]] else [])
  | c :: r =>
    let body := if c = '/' then r else c :: r
    .segments ((resolveDots [] (Text.split '/' body)).map (Percent.encode Percent.path))

/-- A port, which is not written if it is the default one.  Outside: no port. -/
def portOf? (scheme : List Char) (s : List Char) : Option (Option Nat) :=
  if !s.all Char.isDigit then none
  else if s.isEmpty then some none
  else
    let n := Nat.ofDigitChars 10 s 0
    if 65535 < n then none
    else some (if webPorts.lookup scheme = some n then none else some n)

def splitPort (s : List Char) : List Char × List Char :=
  match s with
  | '[' :: _ =>
    let host := s.takeWhile (· ≠ ']')
    let rest := s.drop host.length
    (host ++ rest.take 1, rest.drop 1)
  | _ => (s.takeWhile (· ≠ ':'), s.dropWhile (· ≠ ':'))

/-- What stands before the last sign `@` of an authority, and what after it. -/
def splitUser (s : List Char) : Option (List Char) × List Char :=
  match Text.splitOnce? '@' s.reverse with
  | some (host, user) => (some user.reverse, host.reverse)
  | none => (none, s)

def withAuthority? (u : Url) (s : List Char) : Option Url := do
  let (user, rest) := splitUser s
  let (hostText, portText) := splitPort rest
  let portDigits ←
    match portText with
    | [] => some []
    | ':' :: digits => some digits
    | _ => none
  if hostText.isEmpty ∧ (isWeb u.scheme ∨ user.isSome ∨ !portText.isEmpty) then none
  let host ← if isWeb u.scheme then Host.web? hostText else Host.other? hostText
  let port ← portOf? u.scheme portDigits
  let (name, password) :=
    match Text.splitOnce? ':' (user.getD []) with
    | some (name, password) => (name, some password)
    | none => (user.getD [], none)
  let encode := Percent.encode Percent.userInfo
  pure { u with
    user := encode name
    password := (password.filter (!·.isEmpty)).map encode
    host := some host
    port }

/-- The URL that a text spells.  Blanks and controls around it do not count, nor do tabs and line
breaks in it. -/
def ofText? (s : List Char) : Option Url := do
  let outer (c : Char) : Bool := c.toNat ≤ 0x20
  let s := ((s.dropWhile outer).reverse.dropWhile outer).reverse
  let s := s.filter fun c => !"\t\n\r".toList.contains c
  let (scheme, rest) ← takeScheme? s
  let (rest, fragment) :=
    match Text.splitOnce? '#' rest with
    | some (a, b) => (a, some (Percent.encode Percent.fragment b))
    | none => (rest, none)
  let querySet := if isWeb scheme || isFile scheme then Percent.webQuery else Percent.query
  let (rest, query) :=
    match Text.splitOnce? '?' rest with
    | some (a, b) => (a, some (Percent.encode querySet b))
    | none => (rest, none)
  let bare : Url := ⟨scheme, [], none, none, none, .plain [], query, fragment⟩
  let slash := isSlash scheme
  let hierarchical (s : List Char) : Option Url := do
    let authority := s.takeWhile (!slash ·)
    ({ bare with path := pathOf scheme (s.drop authority.length) } : Url).withAuthority? authority
  if isWeb scheme then hierarchical (rest.dropWhile slash)
  else if isFile scheme then
    match rest with
    | a :: b :: r =>
      if slash a && slash b then
        let name := r.takeWhile (!slash ·)
        let host ← if name.isEmpty then some [] else Host.web? name
        let host := if host = "localhost".toList then [] else host
        pure { bare with host := some host, path := pathOf scheme (r.drop name.length) }
      else pure { bare with host := some [], path := pathOf scheme rest }
    | _ => pure { bare with host := some [], path := pathOf scheme rest }
  else
    match rest with
    | '/' :: '/' :: r => hierarchical r
    | '/' :: _ => pure { bare with path := pathOf scheme rest }
    | _ => pure { bare with path := .plain (Percent.encode Percent.control rest) }

def hasHost (u : Url) : Bool := (u.host.filter (!·.isEmpty)).isSome

def userText (u : Url) : List Char :=
  if u.user.isEmpty && u.password.isNone then []
  else u.user ++ (match u.password with
    | some p => ':' :: p
    | none => []) ++ ['@']

def pathText (u : Url) : List Char :=
  match u.path with
  | .plain s => s
  | .segments s =>
    (if u.host.isNone ∧ 1 < s.length ∧ s.head? = some [] then ['/', '.'] else [])
      ++ s.flatMap fun s => '/' :: s

def text (u : Url) : List Char :=
  u.scheme ++ ':' ::
    ((match u.host with
      | some host => '/' :: '/' :: (u.userText ++ host
        ++ (match u.port with
          | some n => ':' :: Nat.toDigits 10 n
          | none => []))
      | none => [])
    ++ u.pathText
    ++ (match u.query with
      | some q => '?' :: q
      | none => [])
    ++ (match u.fragment with
      | some f => '#' :: f
      | none => []))

/-- Adds pairs to the query, in the form in which forms are sent. -/
def addQuery (u : Url) (pairs : List (List Char × List Char)) : Url :=
  if pairs.isEmpty then u
  else
    let new := pairs.map fun (k, v) => Percent.encodeForm k ++ '=' :: Percent.encodeForm v
    let old := (u.query.filter (!·.isEmpty)).toList
    { u with query := some (['&'].intercalate (old ++ new)) }

end Url

end Automation.Http
