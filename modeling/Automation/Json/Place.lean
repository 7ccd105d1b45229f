import Automation.Text.Utf8

/-!
Places in a text.

A reader holds what is left of the text, so a place is named by what follows it.  Only when a fault
is reported is the place turned into a line and a column, by way of its distance from the start.
-/

namespace Automation.Json

/-- A place in a text: what is left from there on, and how many bytes of that have been looked at.
The bytes looked at count as passed. -/
structure Place where
  rest : List Char
  ahead : Nat
deriving DecidableEq

namespace Place

def before (rest : List Char) : Place := ⟨rest, 0⟩

/-- The place where the first byte of what is left has been looked at. -/
def peeking (rest : List Char) : Place := ⟨rest, 1⟩

end Place

/-- A line, counted from one, and a column, counted in bytes. -/
structure Location where
  line : Nat
  column : Nat
deriving DecidableEq

namespace Location

def after (bytes : List UInt8) : Location :=
  ⟨1 + bytes.count 10, (bytes.reverse.takeWhile (· ≠ 10)).length⟩

def text (l : Location) : String :=
  "line " ++ toString l.line ++ " column " ++ toString l.column

end Location

/-- Where a place lies in the whole text.  There is nothing behind its end. -/
def Place.locate (p : Place) (whole : List Char) : Location :=
  let bytes := Utf8.encode whole
  .after (bytes.take (bytes.length - (Utf8.encode p.rest).length + p.ahead))

/-- What stands between two places, each named by what follows it. -/
structure Span where
  start : List Char
  after : List Char
deriving DecidableEq

def Span.none : Span := ⟨[], []⟩

end Automation.Json
