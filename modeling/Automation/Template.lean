import Automation.Json.Printer
import Automation.Text.Blank

/-!
Templates: texts in which a token such as `{{user.name}}` stands for a value of the scope.

A token is two opening braces, a run of characters other than the closing brace, and two closing
braces; tokens are found from the left and do not overlap.  `pieces` cuts a text into tokens and the
characters between them, and everything else here works on those pieces: `interpolate` puts values
in as text, `placeholders` and `bindings` put numbered placeholders in and list the values apart.
What is put in is never looked at again.
-/

namespace Automation

def Record.follow : Record → List String → Option Value
  | _, [] => none
  | r, [k] => r.get? k
  | r, k :: ks => (r.get? k).bind fun v => v.asRecord?.bind fun inner => follow inner ks

/-- The value at a path whose keys are separated by points.  Lists have no keys. -/
def Record.lookup (r : Record) (path : List Char) : Option Value :=
  r.follow ((Text.split '.' path).map String.ofList)

namespace Template

inductive Piece where
  | char (c : Char)
  | token (path : List Char)
deriving DecidableEq

def token? : List Char → Option (List Char)
  | '{' :: '{' :: s =>
    match s.takeWhile (· ≠ '}'), s.dropWhile (· ≠ '}') with
    | c :: path, '}' :: '}' :: _ => some (c :: path)
    | _, _ => none
  | _ => none

def tokenText (path : List Char) : List Char := '{' :: '{' :: (path ++ ['}', '}'])

/-- The pieces of a text after its first `skip` characters, which belong to a token already found. -/
def piecesFrom : (skip : Nat) → List Char → List Piece
  | _, [] => []
  | skip + 1, _ :: s => piecesFrom skip s
  | 0, c :: s =>
    match token? (c :: s) with
    | some path => .token path :: piecesFrom (path.length + 3) s
    | none => .char c :: piecesFrom 0 s

theorem piecesFrom_eq_drop (skip : Nat) (s : List Char) :
    piecesFrom skip s = piecesFrom 0 (s.drop skip) := by
  induction skip generalizing s with
  | zero => rfl
  | succ skip ih =>
    cases s with
    | nil => rfl
    | cons c s => exact ih s

def pieces (s : List Char) : List Piece := piecesFrom 0 s

def paths (s : List Char) : List (List Char) :=
  (pieces s).filterMap fun
    | .token path => some path
    | .char _ => none

/-- The value that a token stands for.  Blanks around the path do not count, and null is no value. -/
def resolve (scope : Record) (path : List Char) : Option Value :=
  (scope.lookup (Text.trim path)).filter fun v => !v.isNull

def Piece.text (scope : Record) : Piece → List Char
  | .char c => [c]
  | .token path =>
    match resolve scope path with
    | some v => v.text
    | none => tokenText path

/-- The text with each token that stands for a value replaced by that value.  A text without two
opening braces has no token. -/
def interpolate (scope : Record) (s : List Char) : List Char :=
  if Text.contains ['{', '{'] s then (pieces s).flatMap (Piece.text scope) else s

def placeholder (n : Nat) : List Char := '?' :: Nat.toDigits 10 n

/-- The text of pieces with tokens replaced by placeholders, the first of them numbered `n + 1`. -/
def placeholdersFrom : (n : Nat) → List Piece → List Char
  | _, [] => []
  | n, .char c :: r => c :: placeholdersFrom n r
  | n, .token _ :: r => placeholder (n + 1) ++ placeholdersFrom (n + 1) r

def placeholders (s : List Char) : List Char := placeholdersFrom 0 (pieces s)

/-- The values of the tokens of a text; null where a token stands for none. -/
def bindings (scope : Record) (s : List Char) : List Value :=
  (paths s).map fun path => (resolve scope path).getD .null

mutual

/-- A value with each string in it interpolated.  Keys are left alone. -/
def interpolateValue (scope : Record) : Value → Value
  | .string s => .ofText (interpolate scope s.toList)
  | .array items => .array (interpolateItems scope items)
  | .object members => .object (interpolateMembers scope members)
  | v => v

def interpolateItems (scope : Record) : List Value → List Value
  | [] => []
  | v :: r => interpolateValue scope v :: interpolateItems scope r

def interpolateMembers (scope : Record) : List (String × Value) → List (String × Value)
  | [] => []
  | (k, v) :: r => (k, interpolateValue scope v) :: interpolateMembers scope r

end

/-- The path inside braces that enclose a whole text, if it has no brace of its own. -/
def enclosed? (s : List Char) : Option (List Char) :=
  ((Text.dropPrefix? ['{', '{'] (Text.trim s)).bind (Text.dropSuffix? ['}', '}'])).filter
    fun path => !path.contains '{' && !path.contains '}'

/-- The value to bind for a configured one.  A string that is one token and nothing else stands for
the token's value as it is; other strings are interpolated. -/
def bindValue (scope : Record) : Value → Value
  | .string s =>
    match (enclosed? s.toList).bind (resolve scope) with
    | some v => v
    | none => .ofText (interpolate scope s.toList)
  | v => v

end Template

end Automation
