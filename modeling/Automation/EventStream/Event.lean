import Automation.Text.Blank
import Automation.Text.Utf8

/-!
Server-sent events in the bytes of a reply.

A block of lines that a blank line ends is an event if it has a line of data.  `takeBlock?` takes
the first block off the bytes and `takeBlocks` all of them; what stays behind has no blank line.
-/

namespace Automation.EventStream

structure Event where
  type : Option String
  data : String
deriving DecidableEq

/-- The ends of a line together with the blank line after it. -/
def blankLines : List (List UInt8) := [[10, 10], [13, 10, 13, 10]]

def afterBlankLine? (s : List UInt8) : Option (List UInt8) :=
  (blankLines.find? fun end' => end'.isPrefixOf s).map fun end' => s.drop end'.length

def takeBlock? : List UInt8 → Option (List UInt8 × List UInt8)
  | [] => none
  | b :: s =>
    match afterBlankLine? (b :: s) with
    | some rest => some ([], rest)
    | none => (takeBlock? s).map fun (block, rest) => (b :: block, rest)

theorem length_afterBlankLine?_lt {s rest : List UInt8} (h : afterBlankLine? s = some rest) :
    rest.length < s.length := by
  simp only [afterBlankLine?, Option.map_eq_some_iff] at h
  obtain ⟨p, hp, rfl⟩ := h
  have hmem := List.mem_of_find?_eq_some hp
  have hpre := List.find?_some hp
  simp only [List.isPrefixOf_iff_prefix] at hpre
  obtain ⟨t, rfl⟩ := hpre
  have : 0 < p.length := by
    simp only [blankLines, List.mem_cons, List.not_mem_nil, or_false] at hmem
    rcases hmem with rfl | rfl <;> simp
  simp
  omega

theorem length_takeBlock?_lt {s block rest : List UInt8} (h : takeBlock? s = some (block, rest)) :
    rest.length < s.length := by
  induction s generalizing block with
  | nil => simp [takeBlock?] at h
  | cons b s ih =>
    simp only [takeBlock?] at h
    split at h
    · next r hr =>
      simp only [Option.some.injEq, Prod.mk.injEq] at h
      exact h.2 ▸ length_afterBlankLine?_lt hr
    · simp only [Option.map_eq_some_iff, Prod.mk.injEq] at h
      obtain ⟨⟨block', rest'⟩, h', -, rfl⟩ := h
      exact Nat.lt_succ_of_lt (ih h')

def takeBlocks (s : List UInt8) : List (List UInt8) × List UInt8 :=
  match h : takeBlock? s with
  | none => ([], s)
  | some (block, rest) =>
    have := length_takeBlock?_lt h
    let (blocks, rest) := takeBlocks rest
    (block :: blocks, rest)
termination_by s.length

inductive Line where
  | type (name : List Char)
  | data (text : List Char)
  /-- A comment, or a field that nobody asks for. -/
  | other
deriving DecidableEq

/-- Reads a line.  One blank after the colon of a line of data does not belong to it; the type loses
all blanks there. -/
def Line.ofText (s : List Char) : Line :=
  match Text.dropPrefix? "event:".toList s with
  | some name => .type (Text.trimStart name)
  | none =>
    match Text.dropPrefix? "data:".toList s with
    | some text => .data ((Text.dropPrefix? [' '] text).getD text)
    | none => .other

def trimReturns (s : List Char) : List Char := (s.reverse.dropWhile (· = '\r')).reverse

def lines (block : List Char) : List Line :=
  (Text.split '\n' block).map fun s => Line.ofText (trimReturns s)

def Line.type? : Line → Option (List Char)
  | .type name => some name
  | _ => none

def Line.data? : Line → Option (List Char)
  | .data text => some text
  | _ => none

/-- The event of some lines.  The last type counts, and the pieces of data are joined by line
breaks. -/
def Event.ofLines? (ls : List Line) : Option Event :=
  match ls.filterMap Line.data? with
  | [] => none
  | pieces =>
    some ⟨(ls.filterMap Line.type?).getLast?.map .ofList,
      .ofList (['\n'].intercalate pieces)⟩

def Event.ofBlock? (block : List UInt8) : Option Event :=
  Event.ofLines? (lines (Utf8.decode block))

end Automation.EventStream
