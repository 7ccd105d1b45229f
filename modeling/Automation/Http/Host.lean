import Automation.Http.Percent
import Automation.Text.Blank

/-!
Hosts of URLs.

A host is a name, an address of four bytes or an address of eight 16-bit pieces in brackets.  Each is
brought into its one written form; what cannot be a host is refused.
-/

namespace Automation.Http.Host

/-! ## Addresses of four bytes -/

def number? (base : Nat) (s : List Char) : Option Nat :=
  s.foldl (fun n c => n.bind fun n =>
    ((Hex.value? c).filter (· < base)).map fun d => base * n + d) (some 0)

/-- A part of an address: decimal, octal after a zero, or hexadecimal after `0x`. -/
def part? : List Char → Option Nat
  | [] => none
  | '0' :: 'x' :: s | '0' :: 'X' :: s => number? 16 s
  | '0' :: c :: s => number? 8 (c :: s)
  | s => number? 10 s

def parts (s : List Char) : List (List Char) :=
  let parts := Text.split '.' s
  if 1 < parts.length ∧ parts.getLast? = some [] then parts.dropLast else parts

/-- Whether the last part of a name is a number, so that the name has to be an address. -/
def endsInNumber (s : List Char) : Bool :=
  match (parts s).getLast? with
  | none => false
  | some last =>
    (!last.isEmpty && last.all Char.isDigit) ||
      ((Text.dropPrefix? ['0', 'x'] last).bind (number? 16)).isSome

/-- The address of a name whose parts are numbers.  The last part fills up what the others leave. -/
def address4? (s : List Char) : Option Nat := do
  let numbers ← (parts s).mapM part?
  let last ← numbers.getLast?
  let front := numbers.dropLast
  if 4 < numbers.length ∨ front.any (255 < ·) ∨ Nat.pow 256 (5 - numbers.length) ≤ last then none
  else some (front.zipIdx.foldl (fun sum (n, i) => sum + n * Nat.pow 256 (3 - i)) last)

def address4Text (n : Nat) : List Char :=
  ['.'].intercalate ([3, 2, 1, 0].map fun i => Nat.toDigits 10 (n / Nat.pow 256 i % 256))

/-! ## Addresses of eight pieces -/

def plainByte? (s : List Char) : Option Nat :=
  if s.isEmpty ∨ (1 < s.length ∧ s.head? = some '0') then none
  else (number? 10 s).filter (· < 256)

/-- The pieces between colons.  The last may be an address of four bytes, which is two pieces. -/
def pieces? : List (List Char) → Option (List Nat)
  | [] => some []
  | [s] =>
    if s.contains '.' then do
      match ← (Text.split '.' s).mapM plainByte? with
      | [a, b, c, d] => some [256 * a + b, 256 * c + d]
      | _ => none
    else if s.isEmpty ∨ 4 < s.length then none
    else (number? 16 s).map fun n => [n]
  | s :: r =>
    if s.isEmpty ∨ 4 < s.length then none
    else do
      let n ← number? 16 s
      (pieces? r).map (n :: ·)

def gap? : List Char → Option (List Char × List Char)
  | ':' :: ':' :: s => some ([], s)
  | c :: s => (gap? s).map fun (a, b) => (c :: a, b)
  | [] => none

def side? (s : List Char) : Option (List Nat) :=
  if s.isEmpty then some [] else pieces? (Text.split ':' s)

/-- The eight pieces of an address.  Two colons stand for the zeros that are left out. -/
def address6? (s : List Char) : Option (List Nat) :=
  match gap? s with
  | none => (side? s).filter (·.length = 8)
  | some (a, b) =>
    if a.contains '.' then none
    else do
      let a ← side? a
      let b ← side? b
      if 8 ≤ a.length + b.length then none
      else some (a ++ List.replicate (8 - a.length - b.length) 0 ++ b)

def zeros (p : List Nat) : Nat := (p.takeWhile (· = 0)).length

/-- The place and the length of the first of the longest runs of zeros. -/
def longestZeros (p : List Nat) : Nat × Nat :=
  (List.range p.length).foldl (fun (place, length) i =>
    let here := zeros (p.drop i)
    if length < here then (i, here) else (place, length)) (0, 0)

def piecesText (p : List Nat) : List Char := [':'].intercalate (p.map (Nat.toDigits 16))

def address6Text (p : List Nat) : List Char :=
  let (place, length) := longestZeros p
  if length < 2 then piecesText p
  else piecesText (p.take place) ++ [':', ':'] ++ piecesText (p.drop (place + length))

/-! ## Names -/

def forbidden (c : Char) : Bool := "\x00\t\n\r #/:<>?@[\\]^|".toList.contains c

def forbiddenInName (c : Char) : Bool :=
  forbidden c || c.toNat < 0x20 || c = '%' || c.toNat = 0x7F || c = Utf8.replacement

def bracketed? (s : List Char) : Option (List Char) :=
  (Text.dropSuffix? [']'] s).bind fun s => (address6? s).map fun p => '[' :: address6Text p ++ [']']

def web? : List Char → Option (List Char)
  | '[' :: s => bracketed? s
  | s =>
    let name := (Utf8.decode (Percent.decode s)).map Char.toLower
    if name.isEmpty ∨ name.any forbiddenInName then none
    else if endsInNumber name then (address4? name).map address4Text
    else some name

def other? : List Char → Option (List Char)
  | '[' :: s => bracketed? s
  | s => if s.any forbidden then none else some (Percent.encode Percent.control s)

end Automation.Http.Host
