import Automation.Value

/-!
JSON text of values: compact, with the members of an object in the order in which the record lists
them.  Inside a string the quote, the backslash and the control characters are escaped, and nothing
else is.
-/

namespace Automation.Json

def hexDigit (n : Nat) : Char := (Nat.digitChar (n % 16))

def unicodeEscape (c : Char) : List Char :=
  ['\\', 'u', '0', '0', hexDigit (c.toNat / 16), hexDigit c.toNat]

def escape (c : Char) : List Char :=
  if c = '"' then ['\\', '"']
  else if c = '\\' then ['\\', '\\']
  else if c = '\n' then ['\\', 'n']
  else if c = '\r' then ['\\', 'r']
  else if c = '\t' then ['\\', 't']
  else if c = '\x08' then ['\\', 'b']
  else if c = '\x0c' then ['\\', 'f']
  else if c.toNat < 0x20 then unicodeEscape c
  else [c]

def quote (s : List Char) : List Char := '"' :: (s.flatMap escape ++ ['"'])

mutual

def print : Value → List Char
  | .null => ['n', 'u', 'l', 'l']
  | .bool true => ['t', 'r', 'u', 'e']
  | .bool false => ['f', 'a', 'l', 's', 'e']
  | .number n => n.json
  | .string s => quote s.toList
  | .array items => '[' :: (printItems items ++ [']'])
  | .object members => '{' :: (printMembers members ++ ['}'])

def printItems : List Value → List Char
  | [] => []
  | [v] => print v
  | v :: w :: r => print v ++ ',' :: printItems (w :: r)

def printMembers : List (String × Value) → List Char
  | [] => []
  | [(k, v)] => quote k.toList ++ ':' :: print v
  | (k, v) :: m :: r => quote k.toList ++ ':' :: (print v ++ ',' :: printMembers (m :: r))

end

mutual

/-- JSON text with each item and member on a line of its own, two blanks deeper than what holds
it. -/
def pretty (indent : List Char) : Value → List Char
  | .array (v :: r) =>
    '[' :: '\n' :: (prettyItems (' ' :: ' ' :: indent) (v :: r) ++ '\n' :: (indent ++ [']']))
  | .object (m :: r) =>
    '{' :: '\n' :: (prettyMembers (' ' :: ' ' :: indent) (m :: r) ++ '\n' :: (indent ++ ['}']))
  | .array [] => ['[', ']']
  | .object [] => ['{', '}']
  | .null => ['n', 'u', 'l', 'l']
  | .bool b => (toString b).toList
  | .number n => n.json
  | .string s => quote s.toList

def prettyItems (indent : List Char) : List Value → List Char
  | [] => []
  | [v] => indent ++ pretty indent v
  | v :: w :: r => indent ++ (pretty indent v ++ ',' :: '\n' :: prettyItems indent (w :: r))

def prettyMembers (indent : List Char) : List (String × Value) → List Char
  | [] => []
  | [(k, v)] => indent ++ (quote k.toList ++ ':' :: ' ' :: pretty indent v)
  | (k, v) :: m :: r =>
    indent ++ (quote k.toList ++ ':' :: ' ' ::
      (pretty indent v ++ ',' :: '\n' :: prettyMembers indent (m :: r)))

end

end Automation.Json

namespace Automation.Value

/-- A value as text: strings as they are, nothing for null, containers as JSON. -/
def text : Value → List Char
  | .string s => s.toList
  | .null => []
  | .number n => n.text
  | v => Json.print v

end Automation.Value
