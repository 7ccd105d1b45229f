import Automation.EventStream.Parser
import Automation.Failure

/-!
Events as they arrive.

A `Source` stands for a connection: what polling it will find, in order, and then its end.  An
`Events` reads events off a source.  A poll goes on over chunks that complete no event, stops where
the source has nothing yet, and never asks the source again once it has ended or broken.
-/

namespace Automation.EventStream

inductive Arrival where
  | nothingYet
  | chunk (bytes : List UInt8)
  | broken (message : String)
deriving DecidableEq

abbrev Source := List Arrival

inductive Polled (α : Type) where
  | pending
  | ready (x : α)
  | ended
deriving DecidableEq

/-- Reading the events of a source: the events that wait to be handed out come first. -/
structure Events where
  source : Source
  parser : Parser
  waiting : List Event
  ended : Bool
deriving DecidableEq

namespace Events

def ofSource (s : Source) : Events := ⟨s, .empty, [], false⟩

def poll (e : Events) : Polled (Except Failure Event) × Events :=
  match e.waiting with
  | event :: waiting => (.ready (.ok event), { e with waiting })
  | [] =>
    if e.ended then (.ended, e) else
    match _h : e.source with
    | [] =>
      match e.parser.finish with
      | (some event, parser) => (.ready (.ok event), ⟨[], parser, [], true⟩)
      | (none, parser) => (.ended, ⟨[], parser, [], true⟩)
    | .nothingYet :: source => (.pending, { e with source })
    | .broken message :: source =>
      (.ready (.error (.completionStream message)), { e with source, ended := true })
    | .chunk bytes :: source =>
      let (events, parser) := e.parser.feed bytes
      poll ⟨source, parser, events, false⟩
termination_by e.source.length
decreasing_by simp [_h]

/-- How much polling is left: what the source still holds, and then the events that wait. -/
def remaining (e : Events) : Nat × Nat :=
  (if e.ended then 0 else e.source.length + 1, e.waiting.length)

theorem remaining_poll_lt (e : Events) (h : e.poll.1 ≠ .ended) :
    Prod.Lex (· < ·) (· < ·) e.poll.2.remaining e.remaining := by
  fun_induction poll e with
  | case1 e event waiting hw =>
    simp only [remaining, hw, List.length_cons]
    exact Prod.Lex.right _ (Nat.lt_succ_self _)
  | case2 e hw he => exact absurd rfl h
  | case3 e hw he hs event parser hf =>
    refine Prod.Lex.left _ _ ?_
    simp [he]
  | case4 e hw he hs parser hf => exact absurd rfl h
  | case5 e hw he source hs =>
    refine Prod.Lex.left _ _ ?_
    simp [he, hs]
  | case6 e hw he message source hs =>
    refine Prod.Lex.left _ _ ?_
    simp [he]
  | case7 e hw he bytes source hs events parser hf ih =>
    have := ih h
    generalize hq : Events.poll ⟨source, parser, events, false⟩ = q at this
    refine Prod.Lex.left _ _ ?_
    rw [Prod.lex_def] at this
    simp only [remaining, he, hs, List.length_cons, Bool.false_eq_true, if_false] at this ⊢
    omega

def toList (e : Events) : List (Except Failure Event) :=
  match _h : e.poll with
  | (.ended, _) => []
  | (.pending, e') => toList e'
  | (.ready x, e') => x :: toList e'
termination_by e.remaining
decreasing_by
  all_goals
    have := remaining_poll_lt e (by simp [_h])
    rwa [_h] at this

end Events

end Automation.EventStream
