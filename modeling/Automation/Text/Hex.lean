/-!
Hexadecimal digits.
-/

namespace Automation.Hex

def value? (c : Char) : Option Nat :=
  if c.isDigit then some (c.toNat - '0'.toNat)
  else if 'a' ≤ c ∧ c ≤ 'f' then some (c.toNat - 'a'.toNat + 10)
  else if 'A' ≤ c ∧ c ≤ 'F' then some (c.toNat - 'A'.toNat + 10)
  else none

def upperDigit (n : Nat) : Char := (Nat.digitChar n).toUpper

end Automation.Hex
