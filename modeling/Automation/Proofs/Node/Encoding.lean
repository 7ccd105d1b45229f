import Automation.Proofs.Json.Stable
import Automation.Proofs.Node.Config

/-!
# Configurations written and read again

The data of a node may say the same thing in many ways.  `NodeConfig.ofNode_encoded` says that writing
down what has been read of it, and reading that, gives the same configuration, so each way is settled
once and for all.

For each type of node the decoder is stable, field by field.  The checks that a configuration has
passed look at nothing but the configuration, so it passes them again.
-/

namespace Automation

open Json (Decoder Layout Reading)
open Json.Decoder
open Json.Layout (yields_nil Yields Reads reads_nil takes_object)

/-! ## Names -/

theorem Operation.lookup_name (op : Operation) : names.lookup op.name = some op := by
  cases op <;> rfl

theorem SqlOperator.lookup_name (op : SqlOperator) : names.lookup op.name = some op := by
  cases op <;> rfl

theorem Combinator.lookup_name (c : Combinator) : names.lookup c.name = some c := by
  cases c <;> rfl

theorem DelayUnit.lookup_name (u : DelayUnit) : names.lookup u.name = some u := by
  cases u <;> rfl

/-! ## Decoders -/

theorem AgentConfig.stable_decoder : decoder.Stable encode := by
  intro r t c hc
  obtain ⟨⟨credentialId, apiKey, model, systemPrompt, ⟨⟩⟩,
      ⟨hcredential, hkey, hmodel, hprompt, -⟩, rfl⟩ := Yields.of_decoder
    (.optional stable_optionalText restores_none <|
      .optional stable_optionalText restores_none <|
      .optional stable_optionalText restores_none <|
      .optional stable_optionalText restores_none yields_nil) hc
  intro r hr
  have hreads : layout.Reads r.inner
      [("api_key", .ofOption .string apiKey), ("credential_id", .ofOption .string credentialId),
        ("model", .ofOption .string model), ("system_prompt", .ofOption .string systemPrompt)]
      layout.start (some credentialId, some apiKey, some model, some systemPrompt, ()) :=
    .at 1 rfl (by simp) (hcredential _ hr) <| .at 0 rfl (by simp) (hkey _ hr) <|
      .at 0 rfl (by simp) (hmodel _ hr) <| .at 0 rfl (by simp) (hprompt _ hr) reads_nil
  exact takes_object (Reading.allows_of_value hr _) hreads rfl

theorem RequestConfig.stable_decoder : decoder.Stable encode := by
  intro r t c hc
  obtain ⟨⟨method, url, headers, queryParams, body, timeout, credentialId, ⟨⟩⟩,
      ⟨hmethod, hurl, hheaders, hquery, hbody, htimeout, hcredential, -⟩, rfl⟩ := Yields.of_decoder
    (.optional stable_optionalText restores_none <|
      .optional stable_optionalText restores_none <|
      .optional stable_record restores_emptyRecord <|
      .optional stable_record restores_emptyRecord <|
      .optional (stable_any.option ne_null_of_any) restores_none <|
      .optional (stable_double.option fun h _ => ofDouble_ne_null h) restores_none <|
      .optional stable_optionalText restores_none yields_nil) hc
  intro r hr
  have hreads : layout.Reads r.inner
      [("body", .ofOption id body), ("credential_id", .ofOption .string credentialId),
        ("headers", .object headers), ("method", .ofOption .string method),
        ("query_params", .object queryParams), ("timeout", .ofOption .ofDouble timeout),
        ("url", .ofOption .string url)]
      layout.start (some method, some url, some headers, some queryParams, some body, some timeout,
        some credentialId, ()) :=
    .at 3 rfl (by simp) (hmethod _ hr) <| .at 5 rfl (by simp) (hurl _ hr) <|
      .at 2 rfl (by simp) (hheaders _ hr) <| .at 2 rfl (by simp) (hquery _ hr) <|
      .at 0 rfl (by simp) (hbody _ hr) <| .at 1 rfl (by simp) (htimeout _ hr) <|
      .at 0 rfl (by simp) (hcredential _ hr) reads_nil
  exact takes_object (Reading.allows_of_value hr _) hreads rfl

namespace Predicate

theorem restored {r : Reading} {t : Json.Tree} {p : Predicate} (h : decoder r t = .ok p) :
    decoder.Restores encode p ∧ p.encode.Ordered := by
  obtain ⟨⟨column, operator, value, ⟨⟩⟩, ⟨hcolumn, hoperator, hvalue, -⟩, rfl⟩ := Yields.of_decoder
    (.required stable_text <|
      .optional (fun _ => restores_variant SqlOperator.lookup_name _)
        (restores_variant SqlOperator.lookup_name _) <|
      .optional stable_any (restores_any .null) yields_nil) h
  refine ⟨fun r hr => ?_, ?_⟩
  · have hreads : layout.Reads r.inner
        [("column", .string column), ("operator", .string operator.name), ("value", value)]
        layout.start (some column, some operator, some value, ()) :=
      .at 0 rfl (by simp) (hcolumn _ hr) <| .at 0 rfl (by simp) (hoperator _ hr) <|
        .at 0 rfl (by simp) (hvalue _ hr) reads_nil
    exact takes_object (Reading.allows_of_value hr _) hreads rfl
  · have hkeys : ["column", "operator", "value"].Pairwise (· < ·) := by decide
    refine .object hkeys fun m hm => ?_
    simp only [List.mem_cons, List.not_mem_nil, or_false] at hm
    rcases hm with rfl | rfl | rfl
    · exact .string column
    · exact .string operator.name
    · exact ordered_of_restores hvalue

/-- The value under the key is decoded as any value first, so the list is rebuilt before it is read. -/
theorem restores_listDecoder {ps : List Predicate}
    (h : ∀ p ∈ ps, decoder.Restores encode p ∧ p.encode.Ordered) :
    listDecoder.Restores (fun ps => .array (ps.map encode)) ps := by
  intro r hr t ht
  have hordered : (Value.array (ps.map encode)).Ordered :=
    .array (List.forall_mem_map.2 fun p hp => (h p hp).2)
  have hany := takes_any hordered (Reading.allows_of_value hr _) t ht
  have hlist := (restores_list fun p hp => (h p hp).1).ofValue_eq
  rw [listDecoder, Decoder.refine, hany]
  simp only [bind, Except.bind, hlist]
  rfl

theorem restores_emptyListDecoder :
    listDecoder.Restores (fun ps => .array (ps.map encode)) [] :=
  restores_listDecoder fun _ hp => absurd hp List.not_mem_nil

theorem stable_listDecoder : listDecoder.Stable fun ps => .array (ps.map encode) := by
  intro r t ps h
  rcases of_listDecoder h with rfl | ⟨w, -, hlist⟩
  · exact restores_emptyListDecoder
  · exact restores_listDecoder (forall_mem_of_list restored (Checks.mapError_eq_ok_iff.1 hlist))

end Predicate

theorem QueryConfig.stable_decoder : decoder.Stable encode := by
  intro r t c hc
  obtain ⟨⟨credentialId, operation, table, query, columns, predicates, values, limit, ⟨⟩⟩,
      ⟨hcredential, hoperation, htable, hquery, hcolumns, hpredicates, hvalues, hlimit, -⟩, rfl⟩ :=
    Yields.of_decoder
      (.optional stable_optionalText restores_none <|
        .required (fun _ => restores_variant Operation.lookup_name _) <|
        .optional stable_optionalText restores_none <|
        .optional stable_optionalText restores_none <|
        .optional stable_text.list restores_emptyList <|
        .optional Predicate.stable_listDecoder Predicate.restores_emptyListDecoder <|
        .optional stable_record restores_emptyRecord <|
        .optional (stable_u64.option fun h _ => ofNat_ne_null h) restores_none yields_nil) hc
  intro r hr
  have hreads : layout.Reads r.inner
      [("columns", .array (columns.map .string)), ("credential_id", .ofOption .string credentialId),
        ("limit", .ofOption .ofNat limit), ("operation", .string operation.name),
        ("query", .ofOption .string query), ("table", .ofOption .string table),
        ("values", .object values), ("where", .array (predicates.map Predicate.encode))]
      layout.start (some credentialId, some operation, some table, some query, some columns,
        some predicates, some values, some limit, ()) :=
    .at 1 rfl (by simp) (hcredential _ hr) <| .at 2 rfl (by simp) (hoperation _ hr) <|
      .at 3 rfl (by simp) (htable _ hr) <| .at 2 rfl (by simp) (hquery _ hr) <|
      .at 0 rfl (by simp) (hcolumns _ hr) <| .at 2 rfl (by simp) (hpredicates _ hr) <|
      .at 1 rfl (by simp) (hvalues _ hr) <| .at 0 rfl (by simp) (hlimit _ hr) reads_nil
  exact takes_object (Reading.allows_of_value hr _) hreads rfl

theorem Rule.stable_decoder : decoder.Stable encode := by
  intro r t c hc
  obtain ⟨⟨field, operator, value, ⟨⟩⟩, ⟨hfield, hoperator, hvalue, -⟩, rfl⟩ := Yields.of_decoder
    (.required stable_text <|
      .required (fun _ => restores_variant Comparison.lookup_name _) <|
      .optional stable_any (restores_any .null) yields_nil) hc
  intro r hr
  have hreads : layout.Reads r.inner
      [("field", .string field), ("operator", .string operator.name), ("value", value)]
      layout.start (some field, some operator, some value, ()) :=
    .at 0 rfl (by simp) (hfield _ hr) <| .at 0 rfl (by simp) (hoperator _ hr) <|
      .at 0 rfl (by simp) (hvalue _ hr) reads_nil
  exact takes_object (Reading.allows_of_value hr _) hreads rfl

theorem BranchConfig.stable_decoder : decoder.Stable encode := by
  intro r t c hc
  obtain ⟨⟨rules, combinator, ⟨⟩⟩, ⟨hrules, hcombinator, -⟩, rfl⟩ := Yields.of_decoder
    (.optional Rule.stable_decoder.list restores_emptyList <|
      .optional (fun _ => restores_variant Combinator.lookup_name _)
        (restores_variant Combinator.lookup_name _) yields_nil) hc
  intro r hr
  have hreads : layout.Reads r.inner
      [("combine_with", .string combinator.name), ("conditions", .array (rules.map Rule.encode))]
      layout.start (some rules, some combinator, ()) :=
    .at 1 rfl (by simp) (hrules _ hr) <| .at 0 rfl (by simp) (hcombinator _ hr) reads_nil
  exact takes_object (Reading.allows_of_value hr _) hreads rfl

theorem DelayConfig.stable_decoder : decoder.Stable encode := by
  intro r t c hc
  obtain ⟨⟨duration, unit, ⟨⟩⟩, ⟨hduration, hunit, -⟩, rfl⟩ := Yields.of_decoder
    (.optional stable_double (fun _ _ => takes_ofDouble rfl) <|
      .optional (fun _ => restores_variant DelayUnit.lookup_name _)
        (restores_variant DelayUnit.lookup_name _) yields_nil) hc
  intro r hr
  have hreads : layout.Reads r.inner
      [("duration", .ofDouble duration), ("unit", .string unit.name)]
      layout.start (some duration, some unit, ()) :=
    .at 0 rfl (by simp) (hduration _ hr) <| .at 0 rfl (by simp) (hunit _ hr) reads_nil
  exact takes_object (Reading.allows_of_value hr _) hreads rfl

theorem MessageConfig.stable_decoder : decoder.Stable encode := by
  intro r t c hc
  obtain ⟨⟨message, replyToTrigger, integrationId, ⟨⟩⟩, ⟨hmessage, hreply, hintegration, -⟩, rfl⟩ :=
    Yields.of_decoder
      (.optional stable_text (restores_text "") <| .optional stable_bool (restores_bool false) <|
        .optional stable_optionalText restores_none yields_nil) hc
  intro r hr
  have hreads : layout.Reads r.inner
      [("integration_id", .ofOption .string integrationId), ("message", .string message),
        ("reply_to_trigger", .bool replyToTrigger)]
      layout.start (some message, some replyToTrigger, some integrationId, ()) :=
    .at 1 rfl (by simp) (hmessage _ hr) <| .at 1 rfl (by simp) (hreply _ hr) <|
      .at 0 rfl (by simp) (hintegration _ hr) reads_nil
  exact takes_object (Reading.allows_of_value hr _) hreads rfl

theorem AssignmentConfig.stable_decoder : decoder.Stable encode := by
  intro r t c hc
  obtain ⟨⟨name, value, ⟨⟩⟩, ⟨hname, hvalue, -⟩, rfl⟩ := Yields.of_decoder
    (.optional stable_text (restores_text "") <|
      .optional stable_any (restores_any .null) yields_nil) hc
  intro r hr
  have hreads : layout.Reads r.inner [("name", .string name), ("value", value)]
      layout.start (some name, some value, ()) :=
    .at 0 rfl (by simp) (hname _ hr) <| .at 0 rfl (by simp) (hvalue _ hr) reads_nil
  exact takes_object (Reading.allows_of_value hr _) hreads rfl

/-! ## Nodes -/

namespace NodeConfig

/-- A configuration as the data of a node.  A trigger has none, and nothing is known about that of a
node of an unknown type. -/
def encode? : NodeConfig → Option Value
  | .agent c => some c.encode
  | .request c => some c.encode
  | .query c => some c.encode
  | .branch c => some c.encode
  | .delay c => some c.encode
  | .message c => some c.encode
  | .assignment c => some c.encode
  | .trigger | .unknown _ => none

section Reading

variable {α : Type} {n : Node} {d : Decoder α} {encode : α → Value}
  {check : α → Except Complaint Unit} {make : α → NodeConfig} {c : NodeConfig} {v : Value}

/-- One type of node: what has been read and written down is read again. -/
theorem read_encoded (hd : d.Stable encode) (hobject : ∀ b, ∃ data, encode b = .object data)
    (hencode : ∀ b, (make b).encode? = some (encode b)) (h : make <$> read n d check = .ok c)
    (hv : c.encode? = some v) :
    ∃ data, v = .object data ∧ make <$> read { n with data } d check = .ok c := by
  obtain ⟨b, hb, rfl⟩ := Checks.map_eq_ok_iff.1 h
  obtain rfl : encode b = v := Option.some.inj ((hencode b).symm.trans hv)
  obtain ⟨data, hdata⟩ := hobject b
  obtain ⟨hdecode, hcheck⟩ := read_eq_ok_iff.1 hb
  have hagain := (hd (Checks.mapError_eq_ok_iff.1 hdecode)).ofValue_eq
  rw [hdata] at hagain
  have hread : read { n with data } d check = .ok b := read_eq_ok_iff.2 ⟨hagain, hcheck⟩
  exact ⟨data, hdata, Checks.map_eq_ok_iff.2 ⟨b, hread, rfl⟩⟩

end Reading

/-- A configuration that has been read is an object when it is written down, and a node with that as
its data has the same configuration. -/
theorem ofNode_encoded {n : Node} {triggerPrefix : String} {c : NodeConfig} {v : Value}
    (h : ofNode n triggerPrefix = .ok c) (hv : c.encode? = some v) :
    ∃ data, v = .object data ∧ ofNode { n with data } triggerPrefix = .ok c := by
  unfold ofNode at h ⊢
  split at h
  · cases h
    cases hv
  · next htrigger =>
    -- The data of a node says nothing about whether it is a trigger, nor about its type.
    have hsame : ∀ data, ¬({ n with data }).isTrigger triggerPrefix = true := fun _ => htrigger
    simp only [if_neg (hsame _)]
    split at h
    case h_1 => exact read_encoded AgentConfig.stable_decoder (fun _ => ⟨_, rfl⟩) (fun _ => rfl) h hv
    case h_2 => exact read_encoded RequestConfig.stable_decoder (fun _ => ⟨_, rfl⟩) (fun _ => rfl) h hv
    case h_3 => exact read_encoded QueryConfig.stable_decoder (fun _ => ⟨_, rfl⟩) (fun _ => rfl) h hv
    case h_4 => exact read_encoded BranchConfig.stable_decoder (fun _ => ⟨_, rfl⟩) (fun _ => rfl) h hv
    case h_5 => exact read_encoded DelayConfig.stable_decoder (fun _ => ⟨_, rfl⟩) (fun _ => rfl) h hv
    case h_6 => exact read_encoded MessageConfig.stable_decoder (fun _ => ⟨_, rfl⟩) (fun _ => rfl) h hv
    case h_7 =>
      exact read_encoded AssignmentConfig.stable_decoder (fun _ => ⟨_, rfl⟩) (fun _ => rfl) h hv
    case h_8 =>
      cases h
      cases hv

/-- A node with an alias, an operator and a combinator that nobody knows, and a value left off. -/
def looseNode : Node :=
  { Node.new "check" "condition" with
    data := [("combine_with", .string "all"),
      ("conditions", .array [.object [("field", .string "a"), ("operator", .string "equals")],
        .object [("field", .string "b"), ("operator", .string "like"), ("value", .string "x")]])] }

def looseConfig : BranchConfig := ⟨[⟨"a", .eq, .null⟩, ⟨"b", .unsupported, .string "x"⟩], .and⟩

theorem ofNode_encoded_loose :
    let data : Record := [("combine_with", .string "and"),
      ("conditions", .array [
        .object [("field", .string "a"), ("operator", .string "eq"), ("value", .null)],
        .object [("field", .string "b"), ("operator", .string "unsupported"),
          ("value", .string "x")]])]
    ofNode looseNode "trigger_" = .ok (.branch looseConfig) ∧
      ofNode { looseNode with data } "trigger_" = .ok (.branch looseConfig) := by
  intro data
  have hread : ofNode looseNode "trigger_" = .ok (.branch looseConfig) := by
    with_unfolding_all rfl
  obtain ⟨encoded, hencoded, hagain⟩ := ofNode_encoded hread (Eq.refl (some looseConfig.encode))
  obtain rfl : data = encoded := Value.object.inj hencoded
  exact ⟨hread, hagain⟩

end NodeConfig

end Automation
