import Automation.Text.Blank
import Automation.Text.Hex

/-!
The tokens of SQL text.

A token keeps the text it was written as and the byte at which it starts, since messages name them.
-/

namespace Automation.Sql

inductive Token.Kind where
  /-- A keyword or a bare name. -/
  | word (s : List Char)
  /-- A name in quotes; one in double quotes may turn out to be a text. -/
  | quoted (s : List Char) (double : Bool)
  | string (s : List Char)
  | blob (bytes : List UInt8)
  | number (s : List Char)
  /-- A placeholder, with its number if it has one. -/
  | placeholder (number : Option Nat)
  | symbol (s : List Char)
  /-- What no token begins with. -/
  | unknown
deriving DecidableEq

structure Token where
  kind : Token.Kind
  text : List Char
  offset : Nat
deriving DecidableEq

namespace Token

def isWordStart (c : Char) : Bool := c.isAlpha || c = '_' || 0x7F < c.toNat

def isWordChar (c : Char) : Bool := isWordStart c || c.isDigit || c = '$'

/-- The text up to a closing quote, which stands for itself where it is doubled, and how many
characters that took. -/
def untilQuote (quote : Char) : List Char → Option (List Char × Nat)
  | [] => none
  | [c] => if c = quote then some ([], 1) else none
  | c :: d :: s =>
    if c = quote then
      if d = quote then (untilQuote quote s).map fun (t, n) => (quote :: t, n + 2)
      else some ([], 1)
    else (untilQuote quote (d :: s)).map fun (t, n) => (c :: t, n + 1)
termination_by s => s.length

def hexBytes? : List Char → Option (List UInt8)
  | [] => some []
  | a :: b :: s => do
    let x ← Hex.value? a
    let y ← Hex.value? b
    (hexBytes? s).map (UInt8.ofNat (16 * x + y) :: ·)
  | [_] => none

def exponentLength : List Char → Nat
  | e :: s =>
    if e = 'e' ∨ e = 'E' then
      let sign := match s with
        | c :: _ => if c = '+' ∨ c = '-' then 1 else 0
        | [] => 0
      let digits := (s.drop sign).takeWhile Char.isDigit
      if digits.isEmpty then 0 else 1 + sign + digits.length
    else 0
  | [] => 0

def numberLength (s : List Char) : Nat :=
  let whole := (s.takeWhile Char.isDigit).length
  let fraction := match s.drop whole with
    | '.' :: r => 1 + (r.takeWhile Char.isDigit).length
    | _ => 0
  whole + fraction + exponentLength (s.drop (whole + fraction))

def longSymbols : List (List Char) :=
  ["==".toList, "!=".toList, "<>".toList, "<=".toList, ">=".toList, "||".toList]

/-- The kind of the token that a text begins with, and how many characters it takes. -/
def lex : List Char → Kind × Nat
  | [] => (.unknown, 1)
  | '\'' :: s =>
    match untilQuote '\'' s with
    | some (t, n) => (.string t, n + 1)
    | none => (.unknown, s.length + 1)
  | '"' :: s =>
    match untilQuote '"' s with
    | some (t, n) => (.quoted t true, n + 1)
    | none => (.unknown, s.length + 1)
  | '`' :: s =>
    match untilQuote '`' s with
    | some (t, n) => (.quoted t false, n + 1)
    | none => (.unknown, s.length + 1)
  | '[' :: s =>
    let name := s.takeWhile (· ≠ ']')
    if name.length = s.length then (.unknown, s.length + 1)
    else (.quoted name false, name.length + 2)
  | '?' :: s =>
    let digits := s.takeWhile Char.isDigit
    if digits.isEmpty then (.placeholder none, 1)
    else (.placeholder (some (Nat.ofDigitChars 10 digits 0)), digits.length + 1)
  | c :: s =>
    if c.isDigit ∨ (c = '.' ∧ (s.head?.map Char.isDigit).getD false) then
      let n := numberLength (c :: s)
      (.number ((c :: s).take n), n)
    else if (c = 'x' ∨ c = 'X') ∧ s.head? = some '\'' then
      match untilQuote '\'' (s.drop 1) with
      | some (t, n) =>
        match hexBytes? t with
        | some bytes => (.blob bytes, n + 2)
        | none => (.unknown, n + 2)
      | none => (.unknown, s.length + 1)
    else if isWordStart c then
      let word := (c :: s).takeWhile isWordChar
      (.word word, word.length)
    else if longSymbols.contains ((c :: s).take 2) then (.symbol ((c :: s).take 2), 2)
    else if "(),.;=<>*+-/%".toList.contains c then (.symbol [c], 1)
    else (.unknown, 1)

def byteLength (s : List Char) : Nat := s.foldl (fun n c => n + c.utf8Size) 0

/-- The tokens of a text after its first `skip` characters, which belong to a token already read or
to a comment. -/
def listFrom : (skip offset : Nat) → List Char → List Token
  | _, _, [] => []
  | skip + 1, offset, c :: s => listFrom skip (offset + c.utf8Size) s
  | 0, offset, c :: s =>
    if Text.isBlank c then listFrom 0 (offset + c.utf8Size) s
    else if c = '-' ∧ s.head? = some '-' then
      listFrom ((s.takeWhile (· ≠ '\n')).length) (offset + c.utf8Size) s
    else
      let (kind, length) := lex (c :: s)
      ⟨kind, (c :: s).take length, offset⟩ :: listFrom (length - 1) (offset + c.utf8Size) s

def list (s : List Char) : List Token := listFrom 0 0 s

end Token

end Automation.Sql
