import Automation.Text.Hex
import Automation.Text.Utf8

/-!
Percent-encoding: which characters of a part of a URL are written as `%` and two hexadecimal digits a
byte, and how such bytes are read.
-/

namespace Automation.Http.Percent

/-- Controls, and all that is not ASCII. -/
def control (c : Char) : Bool := c.toNat < 0x20 || 0x7E < c.toNat

def fragment (c : Char) : Bool := control c || " \"<>`".toList.contains c

def query (c : Char) : Bool := control c || " \"#<>".toList.contains c

/-- In the queries of the schemes of the web an apostrophe is encoded too. -/
def webQuery (c : Char) : Bool := query c || c = '\''

def path (c : Char) : Bool := query c || "?`\x7b\x7d".toList.contains c

def userInfo (c : Char) : Bool := path c || "/:;=@[\\]^|".toList.contains c

/-- The value of a form: all but letters, digits and `*-._`. -/
def form (c : Char) : Bool := !(c.isAlphanum || "*-._".toList.contains c)

def ofByte (b : UInt8) : List Char := ['%', Hex.upperDigit (b.toNat / 16), Hex.upperDigit (b.toNat % 16)]

def encode (set : Char → Bool) (s : List Char) : List Char :=
  s.flatMap fun c => if set c then (Utf8.encode [c]).flatMap ofByte else [c]

/-- The key or the value of a form, in which a blank is written `+`. -/
def encodeForm (s : List Char) : List Char :=
  s.flatMap fun c => if c = ' ' then ['+'] else encode form [c]

/-- The bytes that an encoded text stands for.  A `%` without two digits after it stands for
itself. -/
def decode : List Char → List UInt8
  | '%' :: a :: b :: s =>
    match Hex.value? a, Hex.value? b with
    | some x, some y => UInt8.ofNat (16 * x + y) :: decode s
    | _, _ => Utf8.encode ['%'] ++ decode (a :: b :: s)
  | c :: s => Utf8.encode [c] ++ decode s
  | [] => []
termination_by s => s.length

end Automation.Http.Percent
