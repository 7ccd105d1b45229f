import Automation.Proofs.EventStream.Polling

/-!
# Poll by poll

What a source will find settles what each poll of its events gives, however often it is polled.
`Parser.outcomes` lists these outcomes along the source: a pending poll wherever the source has nothing
yet, the events that a chunk completes, and at the end the last event or the failure.

`Events.poll_after` says that the outcomes come in that order and without a gap, that every later poll
finds the end, and that what a broken source still holds is left where it is.  The proof goes by one poll
(`Events.outlook_poll`), which gives the first of the outcomes that are left and leaves the others.
-/

namespace Automation.EventStream

namespace Polled

def item? {α : Type} : Polled α → Option α
  | .ready x => some x
  | _ => none

def isPending {α : Type} : Polled α → Bool
  | .pending => true
  | _ => false

def event (e : Event) : Polled (Except Failure Event) := .ready (.ok e)

theorem filterMap_item?_events (es : List Event) :
    (es.map event).filterMap item? = es.map .ok := by
  induction es with
  | nil => rfl
  | cons e es ih =>
    have he : item? (event e) = some (.ok e) := rfl
    rw [List.map_cons, List.filterMap_cons_some he, ih, List.map_cons]

theorem countP_isPending_events (es : List Event) : (es.map event).countP isPending = 0 := by
  rw [List.countP_map]
  exact List.countP_eq_zero.2 fun _ _ => Bool.false_ne_true

theorem ended_not_mem_events (es : List Event) : .ended ∉ es.map event := by
  intro h
  obtain ⟨e, -, he⟩ := List.mem_map.1 h
  cases he

end Polled

namespace Source

def chunks : Source → List (List UInt8)
  | [] => []
  | .nothingYet :: s => chunks s
  | .chunk b :: s => b :: chunks s
  | .broken _ :: _ => []

/-- How often a source has nothing yet before it ends or breaks. -/
def pauses : Source → Nat
  | [] => 0
  | .nothingYet :: s => pauses s + 1
  | .chunk _ :: s => pauses s
  | .broken _ :: _ => 0

def behind : Source → Source
  | [] => []
  | .nothingYet :: s => behind s
  | .chunk _ :: s => behind s
  | .broken _ :: s => s

theorem behind_suffix (s : Source) : s.behind <:+ s := by
  induction s with
  | nil => exact List.suffix_refl []
  | cons a s ih =>
    cases a with
    | nothingYet => exact ih.trans (List.suffix_cons _ s)
    | chunk b => exact ih.trans (List.suffix_cons _ s)
    | broken message => exact List.suffix_cons _ s

end Source

/-! ## The outcomes -/

namespace Parser

/-- What polls give until the end, where a source is read with a parser. -/
def outcomes (p : Parser) : Source → List (Polled (Except Failure Event))
  | [] => p.finish.1.toList.map .event
  | .nothingYet :: s => .pending :: outcomes p s
  | .chunk b :: s => (p.feed b).1.map .event ++ outcomes (p.feed b).2 s
  | .broken message :: _ => [.ready (.error (.completionStream message))]

variable (p : Parser) (s : Source)

/-- The outcomes hand out the events of the chunks one after the other, and then the last event or the
failure. -/
theorem filterMap_outcomes :
    (p.outcomes s).filterMap Polled.item? =
      (p.feedAll s.chunks).1.map .ok ++
        match s.break? with
        | none => (p.feedAll s.chunks).2.finish.1.toList.map .ok
        | some message => [.error (.completionStream message)] := by
  induction s generalizing p with
  | nil => exact Polled.filterMap_item?_events p.finish.1.toList
  | cons a s ih =>
    cases a with
    | nothingYet => exact ih p
    | chunk b =>
      rw [outcomes, List.filterMap_append, Polled.filterMap_item?_events, ih, ← List.append_assoc,
        ← List.map_append]
      rfl
    | broken message => rfl

/-- A poll is pending as often as the source has nothing yet. -/
theorem countP_isPending_outcomes : (p.outcomes s).countP Polled.isPending = s.pauses := by
  induction s generalizing p with
  | nil => exact Polled.countP_isPending_events p.finish.1.toList
  | cons a s ih =>
    cases a with
    | nothingYet => rw [outcomes, List.countP_cons_of_pos rfl, ih, Source.pauses]
    | chunk b =>
      rw [outcomes, List.countP_append, Polled.countP_isPending_events, ih, Nat.zero_add, Source.pauses]
    | broken message => rfl

theorem ended_not_mem_outcomes : .ended ∉ p.outcomes s := by
  induction s generalizing p with
  | nil => exact Polled.ended_not_mem_events p.finish.1.toList
  | cons a s ih =>
    cases a with
    | nothingYet => exact List.not_mem_cons_of_ne_of_not_mem nofun (ih p)
    | chunk b =>
      intro h
      rcases List.mem_append.1 h with h | h
      · exact Polled.ended_not_mem_events _ h
      · exact ih _ h
    | broken message => exact List.not_mem_cons_of_ne_of_not_mem nofun List.not_mem_nil

end Parser

namespace Events

/-! ## One poll -/

def outlook (e : Events) : List (Polled (Except Failure Event)) :=
  e.waiting.map .event ++ if e.ended then [] else e.parser.outcomes e.source

/-- What the source holds that no poll will ask for. -/
def unasked (e : Events) : Source := if e.ended then e.source else Source.behind e.source

theorem unasked_suffix (e : Events) : e.unasked <:+ e.source := by
  rw [unasked]
  split
  · exact List.suffix_refl e.source
  · exact Source.behind_suffix e.source

/-- A poll gives the first of the outcomes that are left and leaves the others, and it asks for nothing
that is not to be asked for. -/
theorem outlook_poll (e : Events) :
    e.poll.1 = e.outlook.headD .ended ∧ e.poll.2.outlook = e.outlook.tail ∧
      e.poll.2.unasked = e.unasked := by
  fun_induction poll e with
  | case1 e event waiting hw => simp [outlook, unasked, hw, Polled.event]
  | case2 e hw he => simp [outlook, hw, he]
  | case3 e hw he hs event parser hf =>
    simp [outlook, unasked, hw, he, hs, hf, Parser.outcomes, Polled.event, Source.behind]
  | case4 e hw he hs parser hf =>
    simp [outlook, unasked, hw, he, hs, hf, Parser.outcomes, Source.behind]
  | case5 e hw he source hs => simp [outlook, unasked, hw, he, hs, Parser.outcomes, Source.behind]
  | case6 e hw he message source hs =>
    simp [outlook, unasked, hw, he, hs, Parser.outcomes, Source.behind]
  | case7 e hw he bytes source hs events parser hf ih =>
    -- The events of the chunk wait where the chunk stood, so that nothing has changed so far.
    have houtlook : e.outlook = outlook ⟨source, parser, events, false⟩ := by
      simp [outlook, hw, he, hs, hf, Parser.outcomes]
    have hunasked : e.unasked = unasked ⟨source, parser, events, false⟩ := by
      simp [unasked, he, hs, Source.behind]
    rw [houtlook, hunasked]
    exact ih

/-! ## Any number of polls -/

def after (e : Events) : Nat → Events
  | 0 => e
  | n + 1 => (e.after n).poll.2

theorem outlook_after (e : Events) (n : Nat) : (e.after n).outlook = e.outlook.drop n := by
  induction n with
  | zero => rfl
  | succ n ih =>
    calc (e.after n).poll.2.outlook = (e.after n).outlook.tail := (outlook_poll _).2.1
      _ = (e.outlook.drop n).tail := by rw [ih]
      _ = e.outlook.drop (n + 1) := List.tail_drop

theorem unasked_after (e : Events) (n : Nat) : (e.after n).unasked = e.unasked := by
  induction n with
  | zero => rfl
  | succ n ih => exact (outlook_poll _).2.2.trans ih

/-- The events of a source come out poll by poll: those that its chunks complete, in order, and then what
no blank line has ended, or the failure if it breaks.  Between them a poll is pending as often as the
source has nothing yet.  All later polls find the end, and none ever asks for what lies behind a break. -/
theorem poll_after (s : Source) :
    ∃ outcomes : List (Polled (Except Failure Event)),
      (∀ n, ((ofSource s).after n).poll.1 = outcomes[n]?.getD .ended) ∧
      .ended ∉ outcomes ∧ outcomes.countP Polled.isPending = s.pauses ∧
      (outcomes.filterMap Polled.item? =
        (Parser.empty.feedAll s.chunks).1.map .ok ++
          match s.break? with
          | none => (Parser.empty.feedAll s.chunks).2.finish.1.toList.map .ok
          | some message => [.error (.completionStream message)]) ∧
      ∀ n, s.behind <:+ ((ofSource s).after n).source := by
  refine ⟨Parser.empty.outcomes s, fun n => ?_, Parser.ended_not_mem_outcomes _ s,
    Parser.countP_isPending_outcomes _ s, Parser.filterMap_outcomes _ s, fun n => ?_⟩
  · calc ((ofSource s).after n).poll.1
        = ((ofSource s).after n).outlook.headD .ended := (outlook_poll _).1
      _ = ((ofSource s).outlook.drop n).headD .ended := by rw [outlook_after]
      _ = (Parser.empty.outcomes s)[n]?.getD .ended := by
        rw [List.headD_eq_head?_getD, List.head?_drop]
        rfl
  · have hsuffix := unasked_suffix ((ofSource s).after n)
    rwa [unasked_after] at hsuffix

end Events

end Automation.EventStream
