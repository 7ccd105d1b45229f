/-!
Text as UTF-8 bytes.

`decode` never fails: where the bytes are no UTF-8, the longest beginning of a character that stands
there, at least one byte, reads as U+FFFD.  It goes through the bytes once, with an unfinished
character as its state.
-/

namespace Automation.Utf8

def encode (s : List Char) : List UInt8 := s.flatMap String.utf8EncodeChar

def replacement : Char := '\uFFFD'

/-- A character of which some bytes have come: the bits so far, how many bytes are to come, and what
the next one may be. -/
structure Unfinished where
  bits : Nat
  left : Nat
  low : Nat
  high : Nat
deriving DecidableEq

inductive Lead where
  | whole (c : Char)
  | more (u : Unfinished)
  | none
deriving DecidableEq

/-- Reads the first byte of a character.  The bounds on the second byte leave out longer spellings
than are needed, surrogates, and what lies beyond U+10FFFF. -/
def lead (b : UInt8) : Lead :=
  let n := b.toNat
  if n < 0x80 then .whole (Char.ofNat n)
  else if n < 0xC2 then .none
  else if n < 0xE0 then .more ⟨n - 0xC0, 1, 0x80, 0xBF⟩
  else if n < 0xF0 then
    .more ⟨n - 0xE0, 2, if n = 0xE0 then 0xA0 else 0x80, if n = 0xED then 0x9F else 0xBF⟩
  else if n < 0xF5 then
    .more ⟨n - 0xF0, 3, if n = 0xF0 then 0x90 else 0x80, if n = 0xF4 then 0x8F else 0xBF⟩
  else .none

def Unfinished.accepts (u : Unfinished) (b : UInt8) : Bool :=
  u.low ≤ b.toNat && b.toNat ≤ u.high

/-- An unfinished character with a byte more: the character, or what is still unfinished. -/
def Unfinished.push (u : Unfinished) (b : UInt8) : Char ⊕ Unfinished :=
  let bits := u.bits * 64 + (b.toNat - 0x80)
  if u.left ≤ 1 then .inl (Char.ofNat bits) else .inr ⟨bits, u.left - 1, 0x80, 0xBF⟩

mutual

def decodeAfter (u : Unfinished) : List UInt8 → List Char
  | [] => [replacement]
  | b :: r =>
    if u.accepts b then
      match u.push b with
      | .inl c => c :: decode r
      | .inr u => decodeAfter u r
    else
      replacement ::
        match lead b with
        | .whole c => c :: decode r
        | .more u => decodeAfter u r
        | .none => replacement :: decode r

def decode : List UInt8 → List Char
  | [] => []
  | b :: r =>
    match lead b with
    | .whole c => c :: decode r
    | .more u => decodeAfter u r
    | .none => replacement :: decode r

end

end Automation.Utf8
