import Automation.Chat.Completion
import Automation.Proofs.EventStream.Polling
import Automation.Proofs.Traversal.Step
import Automation.Rehearsal
import Automation.Run.Dispatch

/-!
# Completions put together from a streamed reply

A successful reply is a stream of events, each of which is decoded by itself into some pieces.
`Chat.ofReply_of_isSuccess` says that the pieces of a completion are those of its events, in order, and
`Chat.complete_of_isSuccess` what comes of them in the node that has asked: the texts among them, or a
failure if the connection breaks.  The texts that came before it do not outlast the failure
(`completionText_append_error`).

An event in which there is no answer is not always without pieces: the count of tokens may be in it
(`Chat.usage_without_choice`).
-/

namespace Automation

open EventStream (Event eventsOf completeEvents)

def Delta.text? : Delta → Option String
  | .text s => some s
  | _ => none

theorem completionText_cons (d : Delta) (rest : List (Except Failure Delta)) :
    completionText (.ok d :: rest) = (completionText rest).map (d.text?.getD "" ++ ·) := by
  have hempty : completionText rest = (completionText rest).map ("" ++ ·) := by
    cases completionText rest with
    | error e => rfl
    | ok s => exact congrArg Except.ok String.empty_append.symm
  cases d with
  | text s => rfl
  | stop reason => exact hempty
  | usage input output => exact hempty

theorem completionText_map_ok (ds : List Delta) :
    completionText (ds.map .ok) = .ok (String.join (ds.filterMap Delta.text?)) := by
  induction ds with
  | nil => rfl
  | cons d ds ih =>
    rw [List.map_cons, completionText_cons, ih, List.filterMap_cons]
    cases d.text? with
    | none => exact congrArg Except.ok String.empty_append
    | some s => exact congrArg Except.ok String.join_cons.symm

theorem completionText_append_error (ds : List Delta) (e : Failure)
    (rest : List (Except Failure Delta)) :
    completionText (ds.map .ok ++ .error e :: rest) = .error e := by
  induction ds with
  | nil => rfl
  | cons d ds ih =>
    rw [List.map_cons, List.cons_append, completionText_cons, ih]
    rfl

namespace Chat

/-! ## The pieces of a reply -/

/-- What an event holds, unless it is the mark at the end or cannot be decoded. -/
def chunk? (e : Event) : Option Chunk :=
  if Text.trim e.data.toList = "[DONE]".toList then none
  else (chunkDecoder.ofText e.data.toList).toOption

/-- The text of the first answer in an event, if there is one and it is not empty. -/
def content? (e : Event) : Option String :=
  ((chunk? e).bind fun c => c.choices.head?.bind Choice.content).filter (!·.isEmpty)

theorem deltasOf_eq (e : Event) : deltasOf e = ((chunk? e).map Chunk.deltas).getD [] := by
  rw [deltasOf, chunk?]
  by_cases hdone : Text.trim e.data.toList = "[DONE]".toList
  · rw [if_pos hdone, if_pos hdone]
    rfl
  · rw [if_neg hdone, if_neg hdone]
    cases chunkDecoder.ofText e.data.toList <;> rfl

theorem filterMap_deltas (c : Chunk) :
    c.deltas.filterMap Delta.text? =
      ((c.choices.head?.bind Choice.content).filter (!·.isEmpty)).toList := by
  have husage : ((c.usage.map fun u => Delta.usage u.promptTokens u.completionTokens).toList
      ).filterMap Delta.text? = [] := by
    cases c.usage <;> rfl
  rw [Chunk.deltas, List.filterMap_append, husage, List.append_nil]
  cases c.choices with
  | nil => rfl
  | cons choice rest =>
    have hstop : ((choice.finishReason.map fun r => Delta.stop (stopReason r)).toList
        ).filterMap Delta.text? = [] := by
      cases choice.finishReason <;> rfl
    rw [List.take_succ_cons, List.take_zero, List.flatMap_singleton, Choice.deltas,
      List.filterMap_append, hstop, List.append_nil]
    show _ = (choice.content.filter _).toList
    cases choice.content.filter (!·.isEmpty) <;> rfl

theorem filterMap_deltasOf (e : Event) :
    (deltasOf e).filterMap Delta.text? = (content? e).toList := by
  rw [deltasOf_eq, content?]
  cases chunk? e with
  | none => rfl
  | some c => exact filterMap_deltas c

theorem filterMap_flatMap_deltasOf (es : List Event) :
    (es.flatMap deltasOf).filterMap Delta.text? = es.filterMap content? := by
  induction es with
  | nil => rfl
  | cons e es ih =>
    rw [List.flatMap_cons, List.filterMap_append, ih, filterMap_deltasOf, List.filterMap_cons]
    cases content? e <;> rfl

theorem deltas_map_ok (es : List Event) :
    deltas (es.map .ok) = (es.flatMap deltasOf).map .ok := by
  rw [deltas, List.flatMap_map, List.map_flatMap]

/-- The pieces of a successful reply are those of its events, in order; a break of the connection
comes after them as a failure. -/
theorem ofReply_of_isSuccess {reply : Http.Reply} (h : reply.isSuccess = true) :
    ofReply reply = .ok
      (match reply.body.break? with
      | none => ((eventsOf reply.body.bytes).flatMap deltasOf).map .ok
      | some message =>
        ((completeEvents reply.body.bytes).flatMap deltasOf).map .ok ++
          [.error (.completionStream message)]) := by
  rw [ofReply, if_pos h, EventStream.Events.toList_ofSource]
  cases reply.body.break? with
  | none => exact congrArg Except.ok (deltas_map_ok _)
  | some message =>
    refine congrArg Except.ok ?_
    show deltas (_ ++ [_]) = _
    rw [deltas, List.flatMap_append, ← deltas, deltas_map_ok]
    rfl

section Sending

variable {t : Http.Transport} {model : ModelConfig} {messages : List ChatMessage}

theorem complete_of_reply {reply : Http.Reply} (h : (draft model messages).send t = .ok reply) :
    complete t model messages = ofReply reply := by
  delta complete
  rw [h]

theorem complete_of_error {m : String} (h : (draft model messages).send t = .error m) :
    complete t model messages = .error (.completion m) := by
  delta complete
  rw [h]

end Sending

/-- What an event is like that holds no pieces: it is the mark at the end, it cannot be decoded, or
there is neither an answer nor a count of tokens in it. -/
inductive Idle (e : Event) : Prop
  | done (h : Text.trim e.data.toList = "[DONE]".toList)
  | undecodable {x : Json.TextError} (h : chunkDecoder.ofText e.data.toList = .error x)
  | hollow {c : Chunk} (h : chunkDecoder.ofText e.data.toList = .ok c) (hchoices : c.choices = [])
      (husage : c.usage = none)

theorem Idle.deltasOf_eq_nil {e : Event} (h : Idle e) : deltasOf e = [] := by
  rw [deltasOf]
  split
  · rfl
  · next hdone =>
    cases h with
    | done h => exact absurd h hdone
    | undecodable h => rw [h]
    | hollow h hchoices husage =>
      rw [h]
      simp [Chunk.deltas, hchoices, husage]

end Chat

/-! ## The node that asks -/

/-- What a node asks a language model, if it comes so far. -/
def Node.asked? (s : Services) (n : Node) (context : Context) :
    Option (ModelConfig × List ChatMessage) :=
  match NodeConfig.ofNode n s.config.engine.triggerPrefix with
  | .ok (.agent c) =>
    match c.callModel s, c.messages s context with
    | .ok model, .ok messages => some (model, messages)
    | _, _ => none
  | _ => none

section Asking

variable {σ : Type} {s : Services} {w : World σ} {n : Node} {context : Context} {world : σ}
  {model : ModelConfig} {messages : List ChatMessage}

theorem Node.plan_of_asked (ha : n.asked? s context = some (model, messages)) :
    n.plan s context =
      .chat model messages fun deltas => (completionText deltas).map AgentConfig.output := by
  rw [asked?] at ha
  split at ha
  · next c hread =>
    split at ha
    · next model' messages' hmodel hmessages =>
      cases ha
      simp only [plan, hread, NodeConfig.plan, AgentConfig.plan, hmodel, hmessages]
    · cases ha
  · cases ha

theorem Node.run_of_asked (ha : n.asked? s context = some (model, messages))
    {answer : Except Failure (List (Except Failure Delta))}
    (hchat : (w.chat model messages world).1 = .done answer) :
    (n.run s w context world).1 =
      (answer.bind fun deltas => (completionText deltas).map AgentConfig.output, context) := by
  have hrun : (n.run s w context world).1 =
      ((w.chat model messages world).1.settle fun answer =>
        answer.bind fun deltas => (completionText deltas).map AgentConfig.output, context) := by
    rw [run, plan_of_asked ha]
    rfl
  rw [hrun, hchat]
  rfl

theorem Traversal.visit_of_untouched {policy : FanOut} {h : Handler σ} {p : Progress σ} {e : Failure}
    (hr : (h n p.context p.world).1 = (.error e, p.context)) :
    (visit policy h n p).2.context = p.context ∧ (visit policy h n p).2.steps = p.steps := by
  rcases hleft : h n p.context p.world with ⟨left, world⟩
  obtain rfl : left = (.error e, p.context) := by rw [← hr, hleft]
  rw [visit_of_error hleft]
  cases policy <;> exact ⟨rfl, rfl⟩

end Asking

namespace Chat

/-- A completion over HTTP consists of the pieces of the events in the body of a successful reply, in
order, however the body is cut, and an event without pieces takes nothing away from the others.  A
node that asks for it answers with the texts among the pieces.  If the body breaks off, the node fails,
and nothing of the texts before is seen in the state or in the steps of the run. -/
theorem complete_of_isSuccess {t : Http.Transport} {model : ModelConfig} {messages : List ChatMessage}
    {reply : Http.Reply} (hsend : (draft model messages).send t = .ok reply)
    (hsuccess : reply.isSuccess = true) :
    (reply.body.break? = none →
      complete t model messages =
          .ok (((eventsOf reply.body.bytes).flatMap deltasOf).map .ok) ∧
        ∀ before e after, eventsOf reply.body.bytes = before ++ e :: after → Idle e →
          complete t model messages = .ok (((before ++ after).flatMap deltasOf).map .ok)) ∧
    ∀ {σ : Type} (s : Services) (w : World σ) (n : Node) (p : Progress σ),
      n.asked? s p.context = some (model, messages) →
      (w.chat model messages p.world).1 = .done (complete t model messages) →
      match reply.body.break? with
      | none =>
        (n.run s w p.context p.world).1 =
          (.ok (AgentConfig.output (String.join ((eventsOf reply.body.bytes).filterMap content?))),
            p.context)
      | some message =>
        (Failure.completionStream message).kind = .externalCall ∧
          (n.run s w p.context p.world).1 = (.error (.completionStream message), p.context) ∧
          ∀ policy, (Traversal.visit policy (Node.run s w) n p).2.context = p.context ∧
            (Traversal.visit policy (Node.run s w) n p).2.steps = p.steps := by
  rw [complete_of_reply hsend, ofReply_of_isSuccess hsuccess]
  refine ⟨fun hbreak => ?_, fun s w n p ha hchat => ?_⟩
  · rw [hbreak]
    refine ⟨rfl, fun before e after heq hidle => ?_⟩
    rw [heq, List.flatMap_append, List.flatMap_append, List.flatMap_cons, hidle.deltasOf_eq_nil,
      List.nil_append]
  · cases hbreak : reply.body.break? with
    | none =>
      rw [hbreak] at hchat
      rw [Node.run_of_asked ha hchat]
      show (Except.map _ (completionText _), _) = _
      rw [completionText_map_ok, filterMap_flatMap_deltasOf]
      rfl
    | some message =>
      rw [hbreak] at hchat
      have hrun := Node.run_of_asked ha hchat
      have htext := completionText_append_error
        ((completeEvents reply.body.bytes).flatMap deltasOf) (.completionStream message) []
      have hleft : (n.run s w p.context p.world).1 =
          (.error (.completionStream message), p.context) := by
        rw [hrun]
        show (Except.map _ (completionText _), _) = _
        rw [htext]
        rfl
      exact ⟨rfl, hleft, fun policy => Traversal.visit_of_untouched hleft⟩

def textEvent (text : String) : String :=
  "data: \x7b\"choices\":[\x7b\"delta\":\x7b\"content\":\"" ++ text ++ "\"\x7d\x7d]\x7d\n\n"

/-- The bytes of an answer in two pieces, with something between them that cannot be decoded. -/
def saluteBytes : List UInt8 :=
  Utf8.encode (textEvent " Hé" ++ "data: oops\n\n" ++ textEvent "llo" ++ "data: [DONE]\n\n").toList

/-- The answer, cut inside a character. -/
def saluteReply : Http.Reply :=
  ⟨200, [], [.chunk (saluteBytes.take 42), .nothingYet, .chunk (saluteBytes.drop 42)]⟩

def brokenReply : Http.Reply := ⟨200, [], [.chunk (saluteBytes.take 80), .broken "reset"]⟩

/-- A rehearsal in which a language model is asked over HTTP and always answers alike. -/
def replying (reply : Http.Reply) : Rehearsal :=
  ⟨.zero, none, .client, .lines [], fun _ => .replied reply, [], []⟩

theorem send_replying {d : Http.Draft} (h : d.toRequest.isOk = true) (reply : Http.Reply) :
    d.send (replying reply).transport = .ok reply := by
  rw [Http.Draft.send]
  cases hrequest : d.toRequest with
  | error e =>
    rw [hrequest] at h
    cases h
  | ok request => rfl

theorem complete_of_isSuccess_salute :
    let s : Services := ⟨.default, fun id => .error (.credentialNotFound id)⟩
    let n := ((Node.new "greeter" "ai_agent").configure "api_key" (.string "sk")).configure
      "system_prompt" (.string "Be kind")
    let context : Context := ⟨[("message", .string "hi")], [], [], []⟩
    (n.run s Rehearsal.world context (replying saluteReply)).1 =
        (.ok (AgentConfig.output " Héllo"), context) ∧
      (n.run s Rehearsal.world context (replying brokenReply)).1 =
        (.error (.completionStream "reset"), context) := by
  intro s n context
  let model : ModelConfig :=
    { AgentConfig.baseModel ⟨none, some "sk", none, none⟩ s with apiKey := some "sk" }
  let messages : List ChatMessage := [⟨.system, "Be kind"⟩, ⟨.user, "hi"⟩]
  have hasked : n.asked? s context = some (model, messages) := by decide +kernel
  have hsent : (draft model messages).toRequest.isOk = true := by decide +kernel
  have hwhole := (complete_of_isSuccess (send_replying hsent saluteReply) rfl).2 s Rehearsal.world n
    (.start context (replying saluteReply)) hasked rfl
  have hbroken := (complete_of_isSuccess (send_replying hsent brokenReply) rfl).2 s Rehearsal.world n
    (.start context (replying brokenReply)) hasked rfl
  have htext : String.join ((eventsOf saluteReply.body.bytes).filterMap content?) = " Héllo" := by
    decide +kernel
  exact ⟨htext ▸ hwhole, hbroken.2.1⟩

def usageEvent : Event :=
  ⟨none, "\x7b\"choices\":[],\"usage\":\x7b\"prompt_tokens\":7,\"completion_tokens\":3\x7d\x7d"⟩

def usageReply : Http.Reply :=
  ⟨200, [], [.chunk (Utf8.encode ("data: " ++ usageEvent.data ++ "\n\n").toList)]⟩

/-- Not every event without an answer is without pieces. -/
theorem usage_without_choice :
    usageReply.isSuccess = true ∧ eventsOf usageReply.body.bytes = [usageEvent] ∧
      (chunk? usageEvent).map (fun c => c.choices.isEmpty) = some true ∧
      ofReply usageReply = .ok [.ok (.usage 7 3)] := by
  have hevents : eventsOf usageReply.body.bytes = [usageEvent] := by decide +kernel
  have hdeltas : deltasOf usageEvent = [.usage 7 3] := by decide +kernel
  have hpieces : ofReply usageReply =
      .ok (((eventsOf usageReply.body.bytes).flatMap deltasOf).map .ok) := ofReply_of_isSuccess rfl
  rw [hevents, List.flatMap_singleton, hdeltas] at hpieces
  exact ⟨rfl, hevents, by decide +kernel, hpieces⟩

end Chat

end Automation
