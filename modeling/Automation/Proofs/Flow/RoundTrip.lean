import Automation.Proofs.Flow.Wire
import Automation.Proofs.Instant.Text
import Automation.Proofs.Json.Depth

/-!
# Flows written and decoded

`Flow.decoder_encode` says that a flow is decoded from what is written for it as it was, and that every
flow that is decoded, from whatever value or text, is one that is.  What is left out when it is written
is what stands for an absent member, and a moment is written with as many digits as it needs.

Text has one limit more: it may open only so many containers inside one another.  A flow has a text that
is decoded exactly if it stays below it, and a flow that has been decoded from a text does.
-/

namespace Automation

open Json (Decoder Layout Reading)
open Json.Decoder
open Json.Layout (yields_nil Yields Reads reads_nil fills_here fills_there takes_object)

variable {r : Reading} {t : Json.Tree}

/-! ## What has been decoded -/

namespace Instant

theorem takes {t : Instant} (ht : t.Datable) : decoder.Takes r t.encode t := by
  intro tree h
  cases h
  simp only [decoder, Decoder.textWith, String.toList_ofList, ofLooseText?_text ht]
  rfl

theorem datable_of_decoder {x : Instant} (h : decoder r t = .ok x) : x.Datable := by
  unfold decoder Decoder.textWith at h
  split at h
  · exact datable_of_ofLooseText? (Checks.mapError_eq_ok_iff.1 (Checks.mapError_eq_ok_iff.1 h))
  · exact absurd h mismatch_ne_ok

end Instant

/-- What holds of everything that is decoded holds of an optional value where there is one. -/
theorem Json.Decoder.forall_mem_of_option {α : Type} {d : Decoder α} {P : α → Prop}
    (h : ∀ {t x}, d r t = .ok x → P x) {o : Option α} (ho : Decoder.option d r t = .ok o) :
    ∀ x ∈ o, P x := by
  unfold Decoder.option at ho
  split at ho
  · cases ho
    exact nofun
  · obtain ⟨x, hx, rfl⟩ := Checks.map_eq_ok_iff.1 ho
    exact fun y hy => Option.some.inj hy ▸ h hx

theorem Position.finite_of_decoder {p : Position} (h : decoder r t = .ok p) : p.Finite := by
  have hnone : ∀ x ∈ (none : Option Double), x.isFinite = true := fun _ hx => by cases hx
  obtain ⟨⟨x, y, ⟨⟩⟩, ⟨hx, hy, -⟩, rfl⟩ := Yields.of_decoder
    (.field isFinite_of_double hnone <| .field isFinite_of_double hnone yields_nil) h
  exact ⟨hx, hy⟩

theorem Value.nesting_ofDouble (x : Double) : (ofDouble x).nesting = 0 := by
  cases x <;> rfl

theorem Position.nesting_encode (p : Position) : p.encode.nesting = 1 := by
  refine Value.nesting_object_of_flat fun m hm => ?_
  simp only [List.mem_cons, List.not_mem_nil, or_false] at hm
  rcases hm with rfl | rfl <;> exact Value.nesting_ofDouble _

/-- Two containers are opened for every node, since there is always a position and a record. -/
theorem Node.storable_of_decoder {n : Node} (h : decoder r t = .ok n) :
    n.Storable ∧ (r.Allows 2 → r.Allows n.encode.nesting) := by
  obtain ⟨⟨id, type, label, position, data, ⟨⟩⟩, ⟨hposition, ⟨hordered, hdata⟩, -⟩, rfl⟩ :=
    Yields.of_decoder
      (.behind <| .behind <| .behind <|
        .field Position.finite_of_decoder (fun p hp => Option.some.inj hp ▸ ⟨rfl, rfl⟩) <|
        .field (Q := fun rec => (Value.object rec).Ordered ∧
            (r.inner.Allows 1 → r.inner.Allows (Value.object rec).nesting))
          (fun h => ⟨ordered_of_record h, fun _ => allows_of_record h⟩)
          (fun rec hrec => Option.some.inj hrec ▸ ⟨ordered_emptyRecord, fun hroom => hroom⟩) yields_nil) h
  refine ⟨⟨hposition, hordered⟩, fun hroom => ?_⟩
  have hone : r.inner.Allows 1 := Reading.allows_succ_iff.1 hroom
  have hnone : r.inner.Allows 0 := hone.mono (Nat.zero_le 1)
  rw [Node.nesting_encode]
  refine Reading.allows_object_iff.2 ⟨hnone, fun m hm => ?_⟩
  simp only [Node.fields, List.mem_cons, List.not_mem_nil, or_false] at hm
  rcases hm with rfl | rfl | rfl | rfl | rfl
  · exact hnone
  · exact hnone
  · exact hnone
  · exact position.nesting_encode ▸ hone
  · exact hdata hone

theorem Variable.ordered_of_decoder {v : Variable} (h : decoder r t = .ok v) :
    v.value.Ordered ∧ (r.Allows 1 → r.Allows v.encode.nesting) := by
  obtain ⟨⟨name, value, type, ⟨⟩⟩, ⟨⟨hordered, hvalue⟩, -⟩, rfl⟩ := Yields.of_decoder
    (.behind <|
      .field (Q := fun v => v.Ordered ∧ (r.inner.Allows 0 → r.inner.Allows v.nesting))
        (fun h => ⟨ordered_of_any h, fun hroom => allows_of_any hroom h⟩)
        (fun v hv => Option.some.inj hv ▸ ⟨.null, fun hroom => hroom⟩) <| .behind yields_nil) h
  refine ⟨hordered, fun hroom => ?_⟩
  have hnone : r.inner.Allows 0 := Reading.allows_succ_iff.1 hroom
  rw [Variable.nesting_encode]
  refine Reading.allows_object_iff.2 ⟨hnone, fun m hm => ?_⟩
  simp only [Variable.fields, List.mem_cons, List.not_mem_nil, or_false] at hm
  rcases hm with rfl | rfl | rfl
  · exact hnone
  · exact hvalue hnone
  · exact hnone

theorem Record.forall_mem_optional {α : Type} {P : String × Value → Prop} {k : String}
    {encode : α → Value} {o : Option α} {rest : Record} (h : ∀ x ∈ o, P (k, encode x))
    (hrest : ∀ m ∈ rest, P m) : ∀ m ∈ optional k encode o ++ rest, P m := by
  cases o with
  | none => exact hrest
  | some x => exact List.forall_mem_cons.2 ⟨h x rfl, hrest⟩

namespace Flow

variable {f : Flow}

/-- What a flow has to be like for there to be a value that is decoded as the flow. -/
structure Expressible (f : Flow) : Prop where
  nodes : ∀ n ∈ f.nodes, n.Storable
  declarations : ∀ v ∈ f.declarations, v.value.Ordered
  created : ∀ t ∈ f.createdAt, t.Datable
  updated : ∀ t ∈ f.updatedAt, t.Datable

def writtenDescription? (f : Flow) : Option String :=
  if f.description.isEmpty then none else some f.description

theorem getD_writtenDescription? (f : Flow) : f.writtenDescription?.getD "" = f.description := by
  rw [writtenDescription?]
  split
  case isTrue hempty => exact (String.isEmpty_iff.1 hempty).symm
  case isFalse => rfl

def writtenMembers (f : Flow) : Record :=
  ("agent_id", .string f.agentId) :: (Record.optional "created_at" Instant.encode f.createdAt ++
    (Record.optional "description" .string f.writtenDescription? ++
      ("edges", encodeEdges f.edges) :: ("id", .string f.id) :: ("is_active", .bool f.isActive) ::
      ("name", .string f.name) :: ("nodes", encodeNodes f.nodes) ::
      (Record.optional "updated_at" Instant.encode f.updatedAt ++
        [("variables", encodeVariables f.declarations)])))

theorem encode_eq (f : Flow) : f.encode = .object f.writtenMembers := by
  rw [encode, writtenMembers, writtenDescription?]
  split <;> simp [Record.optional]

/-- What is written for a flow is decoded as the flow. -/
theorem takes (hf : f.Expressible) (hdepth : r.Allows f.encode.nesting) :
    decoder.Takes r f.encode f := by
  rw [encode_eq] at hdepth ⊢
  obtain ⟨hroom, hmembers⟩ := Reading.allows_object_iff.1 hdepth
  have hnodes : (Decoder.list Node.decoder).Takes r.inner (encodeNodes f.nodes) f.nodes := by
    have hlist := hmembers ("nodes", encodeNodes f.nodes) (by simp [writtenMembers])
    exact takes_list hlist fun n hn =>
      n.takes (hf.nodes n hn) ((Reading.allows_array_iff.1 hlist).2 _ (List.mem_map_of_mem hn))
  have hedges : (Decoder.list Edge.decoder).Takes r.inner (encodeEdges f.edges) f.edges := by
    have hlist := hmembers ("edges", encodeEdges f.edges) (by simp [writtenMembers])
    exact takes_list hlist fun e he =>
      e.takes ((Reading.allows_array_iff.1 hlist).2 _ (List.mem_map_of_mem he))
  have hdeclarations : (Decoder.list Variable.decoder).Takes r.inner (encodeVariables f.declarations)
      f.declarations := by
    have hlist := hmembers ("variables", encodeVariables f.declarations) (by simp [writtenMembers])
    exact takes_list hlist fun v hv =>
      v.takes (hf.declarations v hv) ((Reading.allows_array_iff.1 hlist).2 _ (List.mem_map_of_mem hv))
  have hinstant : ∀ {t : Instant}, t.Datable →
      (Decoder.option Instant.decoder).Takes r.inner t.encode (some t) := fun ht =>
    takes_some (Instant.takes ht) nofun
  have hreads : layout.Reads r.inner f.writtenMembers layout.start
      (some f.id, some f.agentId, some f.name, f.writtenDescription?, some f.isActive, some f.nodes,
        some f.edges, some f.declarations, f.createdAt.map some, f.updatedAt.map some, ()) := by
    -- The members in the order of their keys, each with the fields that it goes past.
    refine .cons (fills_there (by decide) (fills_here (takes_text f.agentId))) ?_
    refine .optional (fun created => (none, some f.agentId, none, none, none, none, none, none,
      created, none, ())) (fun t ht => fills_there (by decide) <| fills_there (by decide) <|
        fills_there (by decide) <| fills_there (by decide) <| fills_there (by decide) <|
        fills_there (by decide) <| fills_there (by decide) <| fills_there (by decide) <|
        fills_here (hinstant (hf.created t ht))) ?_
    refine .optional (fun description => (none, some f.agentId, none, description, none, none, none,
      none, f.createdAt.map some, none, ())) (fun description _ => fills_there (by decide) <|
        fills_there (by decide) <| fills_there (by decide) <| fills_here (takes_text description)) ?_
    refine .cons (fills_there (by decide) <| fills_there (by decide) <| fills_there (by decide) <|
      fills_there (by decide) <| fills_there (by decide) <| fills_there (by decide) <|
      fills_here hedges) ?_
    refine .cons (fills_here (takes_text f.id)) ?_
    refine .cons (fills_there (by decide) <| fills_there (by decide) <| fills_there (by decide) <|
      fills_there (by decide) <| fills_here (takes_bool f.isActive)) ?_
    refine .cons (fills_there (by decide) <| fills_there (by decide) <|
      fills_here (takes_text f.name)) ?_
    refine .cons (fills_there (by decide) <| fills_there (by decide) <| fills_there (by decide) <|
      fills_there (by decide) <| fills_there (by decide) <| fills_here hnodes) ?_
    refine .optional (fun updated => (some f.id, some f.agentId, some f.name,
      f.writtenDescription?.map fun s => s, some f.isActive, some f.nodes, some f.edges, none,
      f.createdAt.map some, updated, ())) (fun t ht => fills_there (by decide) <|
        fills_there (by decide) <| fills_there (by decide) <| fills_there (by decide) <|
        fills_there (by decide) <| fills_there (by decide) <| fills_there (by decide) <|
        fills_there (by decide) <| fills_there (by decide) <|
        fills_here (hinstant (hf.updated t ht))) ?_
    refine .cons (fills_there (by decide) <| fills_there (by decide) <| fills_there (by decide) <|
      fills_there (by decide) <| fills_there (by decide) <| fills_there (by decide) <|
      fills_there (by decide) <| fills_here hdeclarations) ?_
    rw [Option.map_id']
    exact reads_nil
  have hfinish : layout.finish (fun _ key => .missingField key)
      (some f.id, some f.agentId, some f.name, f.writtenDescription?, some f.isActive, some f.nodes,
        some f.edges, some f.declarations, f.createdAt.map some, f.updatedAt.map some, ()) =
      .ok (f.id, f.agentId, f.name, f.writtenDescription?.getD "", f.isActive, f.nodes, f.edges,
        f.declarations, f.createdAt, f.updatedAt, ()) := by
    cases f.writtenDescription? <;> cases f.createdAt <;> cases f.updatedAt <;> rfl
  rw [getD_writtenDescription?] at hfinish
  exact takes_object hdepth hreads hfinish

/-- A flow that has been decoded from a text has a text that is decoded, too, since the text of a flow
opens no more than four containers where nothing asks for more. -/
theorem expressible_of_decoder (h : decoder r t = .ok f) :
    f.Expressible ∧ (r.Allows 4 → r.Allows f.encode.nesting) := by
  have hnoNodes : ∀ ns ∈ some ([] : List Node), ∀ n ∈ ns, n.Storable ∧
      (r.inner.inner.Allows 2 → r.inner.inner.Allows n.encode.nesting) := by
    intro ns hns n hn
    cases hns
    cases hn
  obtain ⟨⟨id, agentId, name, description, isActive, nodes, edges, declarations, createdAt, updatedAt,
      ⟨⟩⟩, ⟨hnodes, hdeclarations, hcreated, hupdated, -⟩, rfl⟩ := Yields.of_decoder
    (.behind <| .behind <| .behind <| .behind <| .behind <|
      .field (forall_mem_of_list Node.storable_of_decoder) hnoNodes <|
      .behind <|
      .field (forall_mem_of_list Variable.ordered_of_decoder)
        (fun vs hvs => by cases hvs; exact nofun) <|
      .field (forall_mem_of_option Instant.datable_of_decoder) (fun o ho => by cases ho; exact nofun) <|
      .field (forall_mem_of_option Instant.datable_of_decoder) (fun o ho => by cases ho; exact nofun) <|
      yields_nil) h
  refine ⟨⟨fun n hn => (hnodes n hn).1, fun v hv => (hdeclarations v hv).1, hcreated, hupdated⟩,
    fun hroom => ?_⟩
  have hthree : r.inner.Allows 3 := Reading.allows_succ_iff.1 hroom
  have htwo : r.inner.inner.Allows 2 := Reading.allows_succ_iff.1 hthree
  have hnone : r.inner.Allows 0 := hthree.mono (Nat.zero_le 3)
  have hnested : r.inner.inner.Allows 0 := htwo.mono (Nat.zero_le 2)
  rw [encode_eq]
  refine Reading.allows_object_iff.2 ⟨hnone, ?_⟩
  refine List.forall_mem_cons.2 ⟨hnone, Record.forall_mem_optional (fun _ _ => hnone) <|
    Record.forall_mem_optional (fun _ _ => hnone) <| List.forall_mem_cons.2 ⟨?_, ?_⟩⟩
  · refine Reading.allows_array_iff.2 ⟨hnested, List.forall_mem_map.2 fun e _ => ?_⟩
    exact e.nesting_encode ▸ htwo.mono (by decide)
  · refine List.forall_mem_cons.2 ⟨hnone, List.forall_mem_cons.2 ⟨hnone, List.forall_mem_cons.2
      ⟨hnone, List.forall_mem_cons.2 ⟨?_, Record.forall_mem_optional (fun _ _ => hnone) <|
        List.forall_mem_singleton.2 ?_⟩⟩⟩⟩
    · exact Reading.allows_array_iff.2 ⟨hnested, List.forall_mem_map.2 fun n hn =>
        (hnodes n hn).2 htwo⟩
    · exact Reading.allows_array_iff.2 ⟨hnested, List.forall_mem_map.2 fun v hv =>
        (hdeclarations v hv).2 (htwo.mono (by decide))⟩

theorem expressible_of_ofText {s : List Char} (h : decoder.ofText s = .ok f) :
    f.Expressible ∧ f.encode.nesting < Json.depthLimit := by
  obtain ⟨t, ht⟩ := exists_of_ofText h
  obtain ⟨hf, hdepth⟩ := expressible_of_decoder ht
  have hroom : (⟨true, 0⟩ : Reading).Allows 4 := fun _ => by decide
  have hless := hdepth hroom rfl
  rw [Nat.zero_add] at hless
  exact ⟨hf, hless⟩

/-- A flow is decoded from the value that is written for it, and from the text of this value if it does
not nest too deep.  This goes for every flow that has been decoded from a value, so decoding what is
written for it and writing that changes nothing; and every flow that has been decoded from a text is
decoded from the text that is written for it. -/
theorem decoder_encode :
    (∀ f : Flow, f.Expressible → decoder.ofValue f.encode = .ok f ∧
      (decoder.ofText (Json.print f.encode) = .ok f ↔ f.encode.nesting < Json.depthLimit)) ∧
    (∀ v f, decoder.ofValue v = .ok f → f.Expressible ∧
      ∃ again, decoder.ofValue f.encode = .ok again ∧ again.encode = f.encode) ∧
    ∀ s f, decoder.ofText s = .ok f → decoder.ofText (Json.print f.encode) = .ok f := by
  have hvalue : ∀ f : Flow, f.Expressible → decoder.ofValue f.encode = .ok f := by
    intro f hf
    rw [Decoder.ofValue, takes hf (Reading.allows_of_value rfl _) _ (Json.spells_ofValue _)]
    rfl
  have htext : ∀ f : Flow, f.Expressible → f.encode.nesting < Json.depthLimit →
      decoder.ofText (Json.print f.encode) = .ok f := by
    intro f hf hdepth
    have hallows : (⟨true, 0⟩ : Reading).Allows f.encode.nesting := fun _ => by rwa [Nat.zero_add]
    exact ofText_print (takes hf hallows)
  -- What has been decoded can be written, so the rest is a case of the first part.
  refine ⟨fun f hf => ⟨hvalue f hf, fun h => (expressible_of_ofText h).2, htext f hf⟩, ?_, ?_⟩
  · intro v f h
    have hf := (expressible_of_decoder (Checks.mapError_eq_ok_iff.1 h)).1
    exact ⟨hf, f, hvalue f hf, rfl⟩
  · intro s f h
    obtain ⟨hf, hdepth⟩ := expressible_of_ofText h
    exact htext f hf hdepth

/-- A flow with a moment at an offset, in single digits, and little else. -/
def looseText : List Char :=
  "\x7b\"name\": \"greet\", \"created_at\": \"2024-2-3 4:5:6.25+01:00\", \"nodes\": [
    \x7b\"type\": \"trigger_webhook\", \"id\": \"t\"\x7d]\x7d".toList

theorem decoder_encode_loose :
    ∃ f, decoder.ofText looseText = .ok f ∧ f.createdAt = some ⟨1706929506, 250000000⟩ ∧
      decoder.ofText (Json.print f.encode) = .ok f ∧ decoder.ofValue f.encode = .ok f ∧
      ∃ again, decoder.ofValue f.encode = .ok again ∧ again.encode = f.encode := by
  have hcreated : (decoder.ofText looseText).toOption.bind Flow.createdAt =
      some ⟨1706929506, 250000000⟩ := by decide +kernel
  cases hdecode : decoder.ofText looseText with
  | error e =>
    rw [hdecode] at hcreated
    cases hcreated
  | ok f =>
    rw [hdecode] at hcreated
    have hvalue := (decoder_encode.1 f (expressible_of_ofText hdecode).1).1
    exact ⟨f, rfl, hcreated, decoder_encode.2.2 looseText f hdecode, hvalue,
      (decoder_encode.2.1 f.encode f hvalue).2⟩

end Flow

end Automation
