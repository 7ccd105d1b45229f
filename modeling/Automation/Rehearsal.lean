import Automation.Database.Connection
import Automation.Run.Plan

/-!
A world for rehearsals.

Its language model and its database answer from scripts, each line of which is used once, and whatever
they are asked is kept.  Time passes only while a node waits, and it may have been set beforehand when
the run is cancelled.
-/

namespace Automation

inductive ChatLine where
  | deltas (ds : List (Except Failure Delta))
  | refuse (message : String)
  /-- No answer ever comes. -/
  | stall

def ChatLine.ofTexts (texts : List String) : ChatLine :=
  .deltas (texts.map (fun s => .ok (.text s)) ++ [.ok (.stop .endTurn)])

inductive QueryLine where
  | outcome (o : SqlOutcome)
  | refuse (message : String)

inductive QueryScript where
  | lines (ls : List QueryLine)
  | files (fs : Database.Files)

inductive ChatScript where
  | lines (ls : List ChatLine)
  /-- Asked over HTTP. -/
  | client

structure Rehearsal where
  now : Duration
  cancelledAt : Option Duration
  chats : ChatScript
  queries : QueryScript
  transport : Http.Transport
  chatted : List (ModelConfig × List ChatMessage)
  queried : List (String × Statement)

namespace Rehearsal

def isCancelled (r : Rehearsal) : Bool :=
  match r.cancelledAt with
  | some t => t.nanos ≤ r.now.nanos
  | none => false

/-- Time passes until something is done or the run is cancelled, whichever comes first. -/
def wait (time : Duration) (r : Rehearsal) : Raced Unit × Rehearsal :=
  let done : Duration := ⟨r.now.nanos + time.nanos⟩
  match r.cancelledAt with
  | some t =>
    if t.nanos ≤ r.now.nanos then (.cancelled, r)
    else if t.nanos < done.nanos then (.cancelled, { r with now := t })
    else (.done (), { r with now := done })
  | none => (.done (), { r with now := done })

/-- Nothing is done until the run is cancelled. -/
def waitForever (r : Rehearsal) : Rehearsal :=
  match r.cancelledAt with
  | some t => { r with now := ⟨max t.nanos r.now.nanos⟩ }
  | none => r

/-- The next line of a script; when it is used up the model says `ok`. -/
def nextChat : List ChatLine → ChatLine × List ChatLine
  | [] => (.ofTexts ["ok"], [])
  | l :: ls => (l, ls)

def chat (model : ModelConfig) (messages : List ChatMessage) (r : Rehearsal) :
    Raced (Except Failure (List (Except Failure Delta))) × Rehearsal :=
  let asked := { r with chatted := r.chatted ++ [(model, messages)] }
  match r.chats with
  | .client => (.done (Chat.complete r.transport model messages), asked)
  | .lines ls =>
    let (line, rest) := nextChat ls
    let r := { asked with chats := .lines rest }
    match line with
    | .deltas ds => (if r.isCancelled then .cancelled else .done (.ok ds), r)
    | .refuse message =>
      (if r.isCancelled then .cancelled else .done (.error (.completion message)), r)
    | .stall => (.cancelled, r.waitForever)

def emptyOutcome : StatementKind → SqlOutcome
  | .query => .rows []
  | .execute => .affected 0

def query (access : DatabaseAccess) (s : Statement) (r : Rehearsal) :
    Except Failure SqlOutcome × Rehearsal :=
  match r.queries with
  | .files fs =>
    let (outcome, fs) := Database.connect fs access s
    (outcome, { r with queries := .files fs })
  | .lines ls =>
    let r := { r with queries := .lines (ls.drop 1), queried := r.queried ++ [(access.database, s)] }
    match ls.head? with
    | some (.outcome o) => (.ok o, r)
    | some (.refuse message) => (.error (.database message), r)
    | none => (.ok (emptyOutcome s.kind), r)

def request (d : Http.Draft) (r : Rehearsal) : Raced (Except Failure Http.Response) × Rehearsal :=
  (if r.isCancelled then .cancelled else .done (d.fetch r.transport), r)

def world : World Rehearsal where
  cancelled := isCancelled
  wait := wait
  chat := chat
  query := query
  request := request

end Rehearsal

end Automation
