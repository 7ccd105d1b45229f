import Automation.Text.Printable

/-!
Texts quoted inside a message: between double quotes, with what would not show written as an escape.
-/

namespace Automation.Text

/-- A character by its number, as in `\u{301}`. -/
def unicodeEscape (c : Char) : List Char :=
  '\\' :: 'u' :: '\x7b' :: (Nat.toDigits 16 c.toNat ++ ['\x7d'])

def escapeQuoted (c : Char) : List Char :=
  if c = '\x00' then ['\\', '0']
  else if c = '\t' then ['\\', 't']
  else if c = '\r' then ['\\', 'r']
  else if c = '\n' then ['\\', 'n']
  else if c = '"' ∨ c = '\\' then ['\\', c]
  else if 0x20 ≤ c.toNat ∧ c.toNat < 0x7F then [c]
  else if extending.contains c ∨ unprintable.contains c then unicodeEscape c
  else [c]

def quoted (s : List Char) : List Char := '"' :: (s.flatMap escapeQuoted ++ ['"'])

end Automation.Text
