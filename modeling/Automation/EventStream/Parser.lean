import Automation.EventStream.Event

/-!
Reading events from bytes that come in chunks.

A parser holds the bytes of which no block has been made yet.  They may end inside a character or
inside a blank line, since nothing is decoded before its block is complete.
-/

namespace Automation.EventStream

/-- The bytes that have come since the last blank line. -/
structure Parser where
  buffer : List UInt8
deriving DecidableEq

namespace Parser

def empty : Parser := ⟨[]⟩

/-- Takes a chunk, and gives the events that it completes. -/
def feed (p : Parser) (chunk : List UInt8) : List Event × Parser :=
  let (blocks, rest) := takeBlocks (p.buffer ++ chunk)
  (blocks.filterMap Event.ofBlock?, ⟨rest⟩)

/-- Takes what is left as a last block, and gives its event. -/
def finish (p : Parser) : Option Event × Parser := (Event.ofBlock? p.buffer, empty)

def feedAll (p : Parser) : List (List UInt8) → List Event × Parser
  | [] => ([], p)
  | chunk :: chunks =>
    let (events, p) := p.feed chunk
    let (later, p) := feedAll p chunks
    (events ++ later, p)

end Parser

end Automation.EventStream
