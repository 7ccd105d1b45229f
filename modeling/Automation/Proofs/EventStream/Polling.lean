import Automation.EventStream.Source
import Automation.Proofs.EventStream.Chunks

/-!
# What polling a connection comes to

Polling until the end gives the events of the bytes that came, in order, and nothing else
(`Events.toList_ofSource`): neither how the bytes are cut nor polls that find nothing make a
difference.  If the connection ends, what no blank line has ended counts as a last block.  If it
breaks, the complete events are followed by the failure, and the beginning of an event is lost.
-/

namespace Automation.EventStream

namespace Source

def bytes : Source → List UInt8
  | [] => []
  | .nothingYet :: s => bytes s
  | .chunk b :: s => b ++ bytes s
  | .broken _ :: _ => []

def break? : Source → Option String
  | [] => none
  | .nothingYet :: s => break? s
  | .chunk _ :: s => break? s
  | .broken message :: _ => some message

end Source

def completeEvents (bytes : List UInt8) : List Event := (Parser.empty.feed bytes).1

/-- The events in some bytes of which no more come. -/
def eventsOf (bytes : List UInt8) : List Event :=
  completeEvents bytes ++ ((Parser.empty.feed bytes).2.finish.1).toList

namespace Parser

/-- What a source has to give to a parser: the events that it completes, and then the last event or
the failure. -/
def yield (p : Parser) (s : Source) : List (Except Failure Event) :=
  (p.feed s.bytes).1.map .ok ++
    match s.break? with
    | none => ((p.feed s.bytes).2.finish.1).toList.map .ok
    | some message => [.error (.completionStream message)]

theorem yield_chunk (p : Parser) (b : List UInt8) (s : Source) :
    p.yield (.chunk b :: s) = (p.feed b).1.map .ok ++ (p.feed b).2.yield s := by
  rw [yield, yield, Source.bytes, Source.break?, feed_append, List.map_append, List.append_assoc]

end Parser

namespace Events

/-! ## One poll -/

theorem toList_eq (e : Events) :
    e.toList =
      match e.poll with
      | (.ended, _) => []
      | (.pending, e') => e'.toList
      | (.ready x, e') => x :: e'.toList := by
  rw [toList]
  split <;> simp_all

theorem toList_congr {e e' : Events} (h : e.poll = e'.poll) : e.toList = e'.toList := by
  rw [toList_eq, toList_eq e', h]

section Polls

variable (p : Parser) (s : Source)

theorem toList_waiting (event : Event) (waiting : List Event) (ended : Bool) :
    toList ⟨s, p, event :: waiting, ended⟩ = .ok event :: toList ⟨s, p, waiting, ended⟩ := by
  rw [toList_eq, poll]

theorem toList_ended : toList ⟨s, p, [], true⟩ = [] := by
  rw [toList_eq, poll]
  rfl

theorem toList_nil : toList ⟨[], p, [], false⟩ = p.finish.1.toList.map .ok := by
  rw [toList_eq, poll]
  cases h : p.finish with
  | mk event p' =>
    cases event with
    | none => rfl
    | some event => exact congrArg (List.cons _) (toList_ended p' [])

theorem toList_nothingYet :
    toList ⟨.nothingYet :: s, p, [], false⟩ = toList ⟨s, p, [], false⟩ := by
  rw [toList_eq, poll]
  rfl

theorem toList_broken (message : String) :
    toList ⟨.broken message :: s, p, [], false⟩ = [.error (.completionStream message)] := by
  rw [toList_eq, poll]
  exact congrArg (List.cons _) (toList_ended p s)

theorem toList_chunk (b : List UInt8) :
    toList ⟨.chunk b :: s, p, [], false⟩ = toList ⟨s, (p.feed b).2, (p.feed b).1, false⟩ := by
  refine toList_congr ?_
  rw [poll]
  rfl

end Polls

theorem toList_append (p : Parser) (s : Source) (waiting : List Event) (ended : Bool) :
    toList ⟨s, p, waiting, ended⟩ = waiting.map .ok ++ toList ⟨s, p, [], ended⟩ := by
  induction waiting with
  | nil => rfl
  | cons event waiting ih => rw [toList_waiting, ih, List.map_cons, List.cons_append]

/-! ## All polls -/

theorem toList_eq_yield {p : Parser} (h : ¬HasBlankLine p.buffer) (s : Source) :
    toList ⟨s, p, [], false⟩ = p.yield s := by
  -- The parser never holds a blank line between two polls, so nothing is left to be handed out.
  induction s generalizing p with
  | nil =>
    have hfeed : p.feed (Source.bytes []) = ([], p) := Parser.feed_nil h
    rw [toList_nil, Parser.yield, hfeed]
    rfl
  | cons a s ih =>
    cases a with
    | nothingYet => rw [toList_nothingYet, ih h]; rfl
    | chunk b =>
      rw [toList_chunk, toList_append, ih (p.not_hasBlankLine_feed b), Parser.yield_chunk]
    | broken message =>
      have hfeed : p.feed (Source.bytes (.broken message :: s)) = ([], p) := Parser.feed_nil h
      rw [toList_broken, Parser.yield, hfeed]
      rfl

/-- Polling a source gives all its events if it ends, and the complete ones and the failure if it
breaks. -/
theorem toList_ofSource (s : Source) :
    (ofSource s).toList =
      match s.break? with
      | none => (eventsOf s.bytes).map .ok
      | some message => (completeEvents s.bytes).map .ok ++ [.error (.completionStream message)] := by
  have hempty : ¬HasBlankLine Parser.empty.buffer := by
    unfold HasBlankLine
    decide
  rw [ofSource, toList_eq_yield hempty, Parser.yield]
  cases s.break? with
  | none => exact List.map_append.symm
  | some message => rfl

end Events

end Automation.EventStream
