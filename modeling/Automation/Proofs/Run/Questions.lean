import Automation.Proofs.Chat.Streamed
import Automation.Proofs.Checks

/-!
# What nodes ask of the world

A node asks the world outside once at most, which its plan has no way not to do, and everything that its
configuration, its credential or the state of the run may be lacking is found out before.  `Node.questions_of_run` says so of every
node: if it fails over its configuration or over something that is not there, nothing has been asked.
What is asked is seen by `World.recorded`, the same world with a list of the questions kept beside it.

The failures of a node that has asked are those of the answer (`Plan.Relays`), so the statement
depends on the failures that answers may have (`World.Remote`).  A language model that is asked over
HTTP fails as it should (`Chat.kind_of_complete`), and so does every request
(`Http.Draft.kind_of_fetch`).
-/

namespace Automation

/-! ## Recording -/

inductive Question where
  | completion (model : ModelConfig) (messages : List ChatMessage)
  | outcome (access : DatabaseAccess) (statement : Statement)
  | response (draft : Http.Draft)

/-- A world that keeps what it is asked, in order. -/
def World.recorded {σ : Type} (w : World σ) : World (σ × List Question) where
  cancelled s := w.cancelled s.1
  wait time s :=
    let (reply, s') := w.wait time s.1
    (reply, s', s.2)
  chat model messages s :=
    let (reply, s') := w.chat model messages s.1
    (reply, s', s.2 ++ [.completion model messages])
  query access statement s :=
    let (reply, s') := w.query access statement s.1
    (reply, s', s.2 ++ [.outcome access statement])
  request draft s :=
    let (reply, s') := w.request draft s.1
    (reply, s', s.2 ++ [.response draft])

namespace Plan

def questions : Plan → List Question
  | chat model messages _ => [.completion model messages]
  | query access statement _ => [.outcome access statement]
  | request draft _ => [.response draft]
  | _ => []

/-- The type alone holds plans to this: an answer is made into an output, and there is no plan that goes
on to another question. -/
theorem length_questions_le (p : Plan) : p.questions.length ≤ 1 := by
  cases p <;> simp [questions]

theorem perform_recorded {σ : Type} (w : World σ) (c : Context) (s : σ) (asked : List Question)
    (p : Plan) :
    p.perform w.recorded c (s, asked) =
      ((p.perform w c s).1, (p.perform w c s).2, asked ++ p.questions) := by
  cases p with
  | chat model messages output => rfl
  | query access statement output => rfl
  | request draft output => rfl
  | _ => simp [perform, questions, World.recorded]

/-- A plan that makes a failure of an answer only if there is one in it. -/
def Relays : Plan → Prop
  | chat _ _ output => ∀ deltas e, output deltas = .error e → .error e ∈ deltas
  | _ => True

end Plan

/-! ## Failures of answers -/

theorem mem_of_completionText_error {deltas : List (Except Failure Delta)} {e : Failure}
    (h : completionText deltas = .error e) : .error e ∈ deltas := by
  induction deltas with
  | nil => cases h
  | cons d deltas ih =>
    cases d with
    | error e' =>
      obtain rfl : e' = e := Except.error.inj h
      exact List.mem_cons_self ..
    | ok d =>
      rw [completionText_cons] at h
      exact List.mem_cons_of_mem _ (ih (Checks.map_eq_error_iff.1 h))

theorem Http.Draft.kind_of_fetch {d : Http.Draft} {t : Http.Transport} {e : Failure}
    (h : d.fetch t = .error e) : e.kind = .externalCall := by
  rw [fetch] at h
  split at h
  · cases h
    rfl
  · split at h <;> cases h
    rfl

/-- Whatever goes wrong with a completion over HTTP, before its pieces come or among them, it went
wrong outside. -/
theorem Chat.kind_of_complete {t : Http.Transport} {model : ModelConfig}
    {messages : List ChatMessage} {e : Failure} :
    (complete t model messages = .error e → e.kind = .externalCall) ∧
      ∀ deltas, complete t model messages = .ok deltas → .error e ∈ deltas →
        e.kind = .externalCall := by
  cases hsend : (draft model messages).send t with
  | error m =>
    rw [complete_of_error hsend]
    exact ⟨fun h => Except.error.inj h ▸ rfl, fun _ h => by cases h⟩
  | ok reply =>
    rw [complete_of_reply hsend]
    cases hsuccess : reply.isSuccess with
    | false =>
      rw [ofReply, hsuccess, if_neg (by decide)]
      exact ⟨fun h => Except.error.inj h ▸ rfl, fun _ h => by cases h⟩
    | true =>
      rw [ofReply_of_isSuccess hsuccess]
      refine ⟨fun h => (by cases h), fun deltas h hmem => ?_⟩
      cases h
      cases hbreak : reply.body.break? with
      | none => simp [hbreak] at hmem
      | some message =>
        obtain rfl : e = .completionStream message := by simpa [hbreak] using hmem
        rfl

/-- Whatever goes wrong with an answer of a world, it went wrong outside, and requests are sent over
some transport. -/
structure World.Remote {σ : Type} (w : World σ) (s : σ) : Prop where
  chat : ∀ model messages e, (w.chat model messages s).1 = .done (.error e) →
    e.kind = .externalCall
  delta : ∀ model messages deltas e, (w.chat model messages s).1 = .done (.ok deltas) →
    .error e ∈ deltas → e.kind = .externalCall
  query : ∀ access statement e, (w.query access statement s).1 = .error e → e.kind = .externalCall
  request : ∀ draft response, (w.request draft s).1 = .done response →
    ∃ t, response = Http.Draft.fetch draft t

namespace Rehearsal

variable {r : Rehearsal}

theorem chat_client (hchats : r.chats = .client) (model : ModelConfig)
    (messages : List ChatMessage) :
    (world.chat model messages r).1 = .done (Chat.complete r.transport model messages) := by
  show (chat model messages r).1 = _
  rw [chat, hchats]

theorem remote_client {ls : List QueryLine} (hchats : r.chats = .client)
    (hqueries : r.queries = .lines ls) : world.Remote r where
  chat model messages e h := by
    rw [chat_client hchats] at h
    exact Chat.kind_of_complete.1 (Raced.done.inj h)
  delta model messages deltas e h hmem := by
    rw [chat_client hchats] at h
    exact Chat.kind_of_complete.2 deltas (Raced.done.inj h) hmem
  query access statement e h := by
    have hquery : (query access statement r).1 = .error e := h
    rw [query, hqueries] at hquery
    rcases hline : ls.head? with _ | ⟨o | m⟩ <;> simp only [hline] at hquery <;> cases hquery
    rfl
  request draft response h := by
    have hrequest : (request draft r).1 = .done response := h
    rw [request] at hrequest
    cases hcancelled : r.isCancelled with
    | true => simp [hcancelled] at hrequest
    | false => exact ⟨r.transport, by simpa [hcancelled, eq_comm] using hrequest⟩

end Rehearsal

namespace Plan

variable {σ : Type} {w : World σ} {s : σ} {c : Context} {p : Plan} {e : Failure}

/-- Once a plan has asked, it fails only because of the answer or because the run is cancelled. -/
theorem kind_of_perform (hp : p.Relays) (hw : w.Remote s) (hasked : p.questions ≠ [])
    (he : (p.perform w c s).1.1 = .error e) : e.kind = .externalCall ∨ e.kind = .cancellation := by
  -- The first three ask nothing.  Of the others each gives what the answer gives, or is cancelled.
  cases p with
  | settled output => exact absurd rfl hasked
  | changed c output => exact absurd rfl hasked
  | wait time output => exact absurd rfl hasked
  | chat model messages output =>
    replace he : ((w.chat model messages s).1.settle fun answer => answer.bind output) = .error e :=
      he
    rcases hreply : (w.chat model messages s).1 with _ | ⟨e' | deltas⟩ <;> rw [hreply] at he
    · cases he
      exact .inr rfl
    · cases he
      exact .inl (hw.chat model messages _ hreply)
    · exact .inl (hw.delta model messages deltas e hreply (hp deltas e he))
  | query access statement output =>
    replace he : (w.query access statement s).1.map output = .error e := he
    exact .inl (hw.query access statement e (Checks.map_eq_error_iff.1 he))
  | request draft output =>
    replace he : ((w.request draft s).1.settle fun response => response.map output) = .error e := he
    rcases hreply : (w.request draft s).1 with _ | response <;> rw [hreply] at he
    · cases he
      exact .inr rfl
    · obtain ⟨t, rfl⟩ := hw.request draft response hreply
      exact .inl (Http.Draft.kind_of_fetch (Checks.map_eq_error_iff.1 he))

end Plan

/-! ## Nodes -/

section Plans

variable (s : Services) (context : Context)

theorem AgentConfig.relays_plan (c : AgentConfig) : (c.plan s context).Relays := by
  rw [plan]
  split
  · trivial
  · split
    · trivial
    · exact fun deltas e h => mem_of_completionText_error (Checks.map_eq_error_iff.1 h)

theorem RequestConfig.relays_plan (c : RequestConfig) : (c.plan s context).Relays := by
  rw [plan]
  split
  · trivial
  · split
    · split <;> trivial
    · trivial

theorem QueryConfig.relays_plan (c : QueryConfig) : (c.plan s context).Relays := by
  rw [plan]
  split
  · trivial
  · split
    · trivial
    · split <;> trivial

theorem DelayConfig.relays_plan (c : DelayConfig) : (c.plan s context).Relays := by
  rw [plan]
  split
  · split <;> trivial
  · trivial

theorem AssignmentConfig.relays_plan (c : AssignmentConfig) : (c.plan context).Relays := by
  rw [plan]
  split <;> trivial

end Plans

theorem Node.relays_plan (s : Services) (n : Node) (context : Context) :
    (n.plan s context).Relays := by
  rw [plan]
  cases NodeConfig.ofNode n s.config.engine.triggerPrefix with
  | error e => trivial
  | ok c =>
    cases c with
    | agent c => exact c.relays_plan s context
    | request c => exact c.relays_plan s context
    | query c => exact c.relays_plan s context
    | delay c => exact c.relays_plan s context
    | assignment c => exact c.relays_plan context
    | _ => trivial

/-- A node asks once at most, and if it fails over a configuration or over something that is not there,
it has asked nothing.  The first is what it means that a node can be run as a plan
(`Plan.length_questions_le`); the second depends on what each node finds out before it asks and on what it
makes of the answer (`Node.relays_plan`). -/
theorem Node.questions_of_run {σ : Type} (s : Services) (w : World σ) (n : Node) (context : Context)
    (world : σ) :
    ∃ questions,
      n.run s w.recorded context (world, []) =
        ((n.run s w context world).1, (n.run s w context world).2, questions) ∧
      questions.length ≤ 1 ∧
      (w.Remote world → ∀ e, (n.run s w context world).1.1 = .error e →
        e.kind = .configuration ∨ e.kind = .notFound → questions = []) := by
  refine ⟨(n.plan s context).questions, ?_, Plan.length_questions_le _, fun hw e he hkind => ?_⟩
  · exact Plan.perform_recorded w context world [] (n.plan s context)
  · refine Classical.byContradiction fun hasked => ?_
    rcases Plan.kind_of_perform (n.relays_plan s context) hw hasked he with h | h <;>
      simp [h] at hkind

def Rehearsal.offline : Rehearsal := ⟨.zero, none, .client, .lines [], .unreachable, [], []⟩

theorem Node.questions_of_run_locked :
    let s : Services := ⟨.default, fun id => .error (.credentialNotFound id)⟩
    let context : Context := ⟨[], [], [], []⟩
    let n := ((Node.new "report" "http_request").configure "url" (.string "http://h/")).configure
      "credential_id" (.string "gone")
    (n.run s Rehearsal.world context .offline).1.1 = .error (.credentialNotFound "gone") ∧
      (n.run s Rehearsal.world.recorded context (.offline, [])).2.2 = [] := by
  intro s context n
  have hplan : (match n.plan s context with
      | .settled (.error e) => decide (e = .credentialNotFound "gone")
      | _ => false) = true := by decide +kernel
  have hleft : (n.run s Rehearsal.world context .offline).1.1 =
      .error (.credentialNotFound "gone") := by
    rw [run]
    split at hplan
    · next e heq =>
      rw [heq, of_decide_eq_true hplan]
      rfl
    · cases hplan
  obtain ⟨questions, hrun, -, hnone⟩ := questions_of_run s Rehearsal.world n context .offline
  have hremote : Rehearsal.world.Remote .offline := Rehearsal.remote_client rfl rfl
  refine ⟨hleft, ?_⟩
  rw [hrun]
  exact hnone hremote _ hleft (.inr rfl)

end Automation
