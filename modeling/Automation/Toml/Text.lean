import Automation.Text.Hex

/-!
TOML strings and bare keys.

A string stands between quotation marks or between apostrophes, on one line between single marks or
over several lines between triple ones.  Only between quotation marks are there escapes.
`Quotes.read` reads all four forms and `quoted` writes a text in the form that needs the fewest
escapes.
-/

namespace Automation.Toml

/-- The characters that strings and comments are made of: all but the controls, of which the tab
stays. -/
def isText (c : Char) : Bool := c = '\t' || (' ' ≤ c && c ≠ '\x7f')

def isBlank (c : Char) : Bool := c = ' ' || c = '\t'

def skipBlanks (s : List Char) : List Char := s.dropWhile isBlank

def newline? : List Char → Option (List Char)
  | '\n' :: s => some s
  | '\r' :: '\n' :: s => some s
  | _ => none

def skipLines : List Char → List Char
  | ' ' :: s => skipLines s
  | '\t' :: s => skipLines s
  | '\n' :: s => skipLines s
  | '\r' :: '\n' :: s => skipLines s
  | s => s

def character? (digits : List Char) : Option Char := do
  let values ← digits.mapM Hex.value?
  let n := values.foldl (fun n d => 16 * n + d) 0
  if h : n.isValidChar then some (Char.ofNatAux n h) else none

/-- What stands after a backslash: the character, and how many characters spell it. -/
def escape? : List Char → Option (Char × Nat)
  | 'b' :: _ => some ('\x08', 1)
  | 't' :: _ => some ('\t', 1)
  | 'n' :: _ => some ('\n', 1)
  | 'f' :: _ => some ('\x0c', 1)
  | 'r' :: _ => some ('\r', 1)
  | '"' :: _ => some ('"', 1)
  | '\\' :: _ => some ('\\', 1)
  | 'u' :: s => if 4 ≤ s.length then (character? (s.take 4)).map (·, 5) else none
  | 'U' :: s => if 8 ≤ s.length then (character? (s.take 8)).map (·, 9) else none
  | _ => none

/-- How many characters after a backslash at the end of a line are passed over: through all blanks
and ends of lines. -/
def continuation? (s : List Char) : Option Nat :=
  (newline? (skipBlanks s)).map fun rest => s.length - (skipLines rest).length

structure Quotes where
  mark : Char
  triple : Bool
deriving DecidableEq

namespace Quotes

def escapes (q : Quotes) : Bool := q.mark = '"'

/-- Reads a string after its opening marks.  `content` holds the characters so far in reverse, and
`skip` is how many are still to be passed over.  One or two marks may stand in a string between
triple ones, also at its end. -/
def read (q : Quotes) (content : List Char) :
    (skip : Nat) → List Char → Option (String × List Char)
  | _, [] => none
  | skip + 1, _ :: s => read q content skip s
  | 0, c :: s =>
    if c = q.mark then
      if q.triple then
        let more := (s.takeWhile (· = q.mark)).length
        if more < 2 then read q (c :: content) 0 s
        else
          let kept := min (more - 2) 2
          some (.ofList (content.reverse ++ List.replicate kept c), s.drop (kept + 2))
      else some (.ofList content.reverse, s)
    else if c = '\\' && q.escapes then
      match escape? s with
      | some (x, n) => read q (x :: content) n s
      | none =>
        if q.triple then
          match continuation? s with
          | some n => read q content n s
          | none => none
        else none
    else if q.triple && c = '\n' then read q ('\n' :: content) 0 s
    else if q.triple && c = '\r' && s.head? = some '\n' then read q ('\n' :: content) 1 s
    else if isText c then read q (c :: content) 0 s
    else none

/-- The marks that open a string, and what follows them.  An end of line right after triple marks is
passed over. -/
def open? : List Char → Option (Quotes × List Char)
  | c :: s =>
    if c = '"' ∨ c = '\'' then
      if s.take 2 = [c, c] then
        let s := s.drop 2
        some (⟨c, true⟩, (newline? s).getD s)
      else some (⟨c, false⟩, s)
    else none
  | [] => none

end Quotes

def string? (s : List Char) : Option (String × List Char) := do
  let (q, s) ← Quotes.open? s
  q.read [] 0 s

/-! ## Writing -/

/-- The text of a character between quotation marks.  Between triple marks an end of line stands for
itself. -/
def escaped (triple : Bool) (c : Char) : List Char :=
  if c = '\x08' then ['\\', 'b']
  else if c = '\t' then ['\\', 't']
  else if c = '\n' then if triple then ['\n'] else ['\\', 'n']
  else if c = '\x0c' then ['\\', 'f']
  else if c = '\r' then ['\\', 'r']
  else if c = '"' then ['\\', '"']
  else if c = '\\' then ['\\', '\\']
  else if isText c then [c]
  else ['\\', 'u', '0', '0', Hex.upperDigit (c.toNat / 16), Hex.upperDigit (c.toNat % 16)]

def hasTriple (c : Char) : List Char → Bool
  | a :: s => (a = c && s.take 2 = [c, c]) || hasTriple c s
  | [] => false

/-- Whether a text can stand between apostrophes, and is the better for it.  Apostrophes at its end
would run into the marks. -/
def prefersApostrophes (s : List Char) : Bool :=
  s.any (fun c => c = '"' || c = '\\') && s.all (fun c => isText c || c = '\n')
    && !hasTriple '\'' s && s.getLast? ≠ some '\''

/-- A text as a string: between apostrophes where that saves escapes, over several lines where it has
several. -/
def quoted (s : List Char) : List Char :=
  let lines := s.contains '\n'
  if prefersApostrophes s then
    let marks := if lines || s.contains '\'' then ['\'', '\'', '\''] else ['\'']
    marks ++ (if lines then ['\n'] else []) ++ s ++ marks
  else if lines then
    ['"', '"', '"', '\n'] ++ s.flatMap (escaped true) ++ ['"', '"', '"']
  else '"' :: s.flatMap (escaped false) ++ ['"']

end Automation.Toml
