import Automation.Proofs.Instant.Order
import Automation.Proofs.Store.History
import Automation.Proofs.Text.Order

/-!
# Flows are listed oldest first

An agent is answered with its flows in an order, which `Store.flowsOf_serve` says is that of the moments
of their creation, and of their ids where they were created at one moment.  The rows are sorted by texts;
that these stand in the order of the moments and of the bytes of the ids is known from
`Instant.column_lt_iff` and `Utf8.encode_lt_iff`.
-/

namespace Automation

/-- Whether a flow is listed before another: it was created before it, or at the same moment and the
bytes of its id come first. -/
def Flow.Precedes (f g : Flow) : Prop :=
  ∃ t u, f.createdAt = some t ∧ g.createdAt = some u ∧
    (t.Before u ∨ t = u ∧ Utf8.encode f.id.toList < Utf8.encode g.id.toList)

theorem Flow.Precedes.asymm {f g : Flow} (h : f.Precedes g) : ¬g.Precedes f := by
  obtain ⟨t, u, ht, hu, h⟩ := h
  rintro ⟨u', t', hu', ht', h'⟩
  obtain rfl : t = t' := Option.some.inj (ht.symm.trans ht')
  obtain rfl : u = u' := Option.some.inj (hu.symm.trans hu')
  rcases h with hbefore | ⟨rfl, hid⟩
  · rcases h' with hafter | ⟨rfl, -⟩
    · exact hbefore.asymm hafter
    · exact hbefore.asymm hbefore
  · rcases h' with hafter | ⟨-, hid'⟩
    · exact hafter.asymm hafter
    · exact List.lt_asymm hid hid'

theorem Flow.eq_of_precedes {fs gs : List Flow} (hfs : fs.Pairwise Precedes) (hgs : gs.Pairwise Precedes)
    (hmem : ∀ g, g ∈ fs ↔ g ∈ gs) : fs = gs := by
  have hnodup : ∀ {l : List Flow}, l.Pairwise Precedes → l.Nodup := fun hl => hl.imp <| by
    rintro f _ hff rfl
    exact hff.asymm hff
  have hperm := (List.perm_ext_iff_of_nodup (hnodup hfs) (hnodup hgs)).2 hmem
  exact hperm.eq_of_pairwise (fun f g _ _ hfg hgf => absurd hgf hfg.asymm) hfs hgs

namespace Store

/-! ## Sorted rows -/

section Sorted

theorem flowsInOrder_iff {a b : FlowRow} :
    flowsInOrder a b = true ↔
      a.createdAt < b.createdAt ∨ a.createdAt = b.createdAt ∧ a.id ≤ b.id := by
  simp [flowsInOrder]

theorem flowsInOrder_trans (a b c : FlowRow) (hab : flowsInOrder a b = true)
    (hbc : flowsInOrder b c = true) : flowsInOrder a c = true := by
  rw [flowsInOrder_iff] at hab hbc ⊢
  rcases hab with hab | ⟨hab, hid⟩
  · rcases hbc with hbc | ⟨hbc, -⟩
    · exact .inl (lt_trans hab hbc)
    · exact .inl (hbc ▸ hab)
  · rcases hbc with hbc | ⟨hbc, hid'⟩
    · exact .inl (hab ▸ hbc)
    · exact .inr ⟨hab.trans hbc, le_trans hid hid'⟩

theorem flowsInOrder_total (a b : FlowRow) : (flowsInOrder a b || flowsInOrder b a) = true := by
  rw [Bool.or_eq_true, flowsInOrder_iff, flowsInOrder_iff]
  rcases lt_trichotomy a.createdAt b.createdAt with hlt | heq | hgt
  · exact .inl (.inl hlt)
  · rcases le_total a.id b.id with hle | hge
    · exact .inl (.inr ⟨heq, hle⟩)
    · exact .inr (.inr ⟨heq.symm, hge⟩)
  · exact .inr (.inl hgt)

theorem pairwise_sorted {rows : List FlowRow} (hnodup : (rows.map FlowRow.id).Nodup) :
    (rows.mergeSort flowsInOrder).Pairwise fun a b =>
      a.createdAt < b.createdAt ∨ a.createdAt = b.createdAt ∧ a.id < b.id := by
  have hsorted : (rows.mergeSort flowsInOrder).Pairwise fun a b => flowsInOrder a b = true :=
    List.pairwise_mergeSort flowsInOrder_trans flowsInOrder_total rows
  have hids : ((rows.mergeSort flowsInOrder).map FlowRow.id).Nodup :=
    ((List.mergeSort_perm rows flowsInOrder).map FlowRow.id).nodup_iff.2 hnodup
  refine (hsorted.and (List.pairwise_map.1 hids)).imp fun ⟨hle, hne⟩ => ?_
  rcases flowsInOrder_iff.1 hle with hlt | ⟨heq, hid⟩
  · exact .inl hlt
  · exact .inr ⟨heq, lt_of_le_of_ne hid hne⟩

end Sorted

/-- Rows in order are those of flows in order, if their moments can be read back. -/
theorem precedes_of_row {f g : Flow} (hf : ∃ t, f.createdAt = some t ∧ t.Writable)
    (hg : ∃ t, g.createdAt = some t ∧ t.Writable)
    (h : f.row.createdAt < g.row.createdAt ∨ f.row.createdAt = g.row.createdAt ∧ f.row.id < g.row.id) :
    f.Precedes g := by
  obtain ⟨t, hft, ht⟩ := hf
  obtain ⟨u, hgu, hu⟩ := hg
  have hfrow : f.row.createdAt = t.column := by rw [Flow.row, hft]; rfl
  have hgrow : g.row.createdAt = u.column := by rw [Flow.row, hgu]; rfl
  rw [hfrow, hgrow] at h
  refine ⟨t, u, hft, hgu, ?_⟩
  rcases h with hlt | ⟨heq, hid⟩
  · exact .inl ((Instant.column_lt_iff ht hu).1 hlt)
  · exact .inr ⟨Instant.column_inj ht hu heq, Utf8.encode_lt_iff.2 (String.lt_iff_toList_lt.1 hid)⟩

/-! ## What is listed -/

section Listed

variable {s : Store} {saved : List Flow} (h : Holds s saved)
include h

theorem Holds.exists_rows {rows : List FlowRow} (hrows : ∀ r ∈ rows, r ∈ s.flows) :
    ∃ stored : List Flow, stored.map Flow.row = rows ∧ ∀ g ∈ stored, remembered saved g.id = some g := by
  induction rows with
  | nil => exact ⟨[], rfl, nofun⟩
  | cons r rows ih =>
    obtain ⟨hr, hrest⟩ := List.forall_mem_cons.1 hrows
    obtain ⟨g, hg, rfl⟩ := h.exists_of_mem hr
    obtain ⟨stored, rfl, hstored⟩ := ih hrest
    exact ⟨g :: stored, rfl, List.forall_mem_cons.2 ⟨hg, hstored⟩⟩

theorem Holds.flow_eq {g : Flow} (hg : remembered saved g.id = some g) : s.flow g.id = g.row.flow := by
  rw [Store.flow, h.find?_eq, hg]
  rfl

theorem Holds.mem_flows {g : Flow} (hg : remembered saved g.id = some g) : g.row ∈ s.flows := by
  have hfind := h.find?_eq g.id
  rw [hg] at hfind
  exact List.mem_of_find?_eq_some hfind

/-- An agent is answered only if the lists of all of its flows can be read back. -/
theorem Holds.shallow_of_flowsOf {agentId : String} {listed : List Flow}
    (hok : s.flowsOf agentId = .ok listed) {g : Flow} (hg : remembered saved g.id = some g)
    (hagent : g.agentId = agentId) : g.Shallow := by
  have hrow : g.row ∈ (s.flows.filter fun r => r.agentId = agentId).mergeSort flowsInOrder := by
    rw [List.mem_mergeSort, List.mem_filter]
    exact ⟨h.mem_flows hg, decide_eq_true hagent⟩
  obtain ⟨f, hf⟩ := Checks.exists_of_mapM_mem hok hrow
  exact Flow.shallow_of_flow_row hf

variable (hcreated : ∀ g ∈ saved, ∀ t, g.createdAt = some t → t.Writable)
include hcreated

theorem Holds.exists_created {id : String} {g : Flow} (hg : remembered saved id = some g) :
    ∃ t, g.createdAt = some t ∧ t.Writable := by
  obtain ⟨first, hfirst, last, -, -, -, rfl⟩ := exists_of_remembered hg
  obtain ⟨t, ht⟩ := Option.ne_none_iff_exists'.1 (h.moments first hfirst).1
  exact ⟨t, ht, hcreated first hfirst t ht⟩

/-- The rows of an agent in order are those of its flows in order, and the agent is answered with what
each of their ids is answered with. -/
theorem Holds.listing (agentId : String) : ∃ stored : List Flow,
    (∀ g, g ∈ stored ↔ remembered saved g.id = some g ∧ g.agentId = agentId) ∧
      (stored.map Flow.id).Nodup ∧ stored.Pairwise Flow.Precedes ∧
      s.flowsOf agentId = stored.mapM fun g => s.flow g.id := by
  have hmem : ∀ r, r ∈ (s.flows.filter fun r => r.agentId = agentId).mergeSort flowsInOrder ↔
      r ∈ s.flows ∧ r.agentId = agentId := fun r => by
    rw [List.mem_mergeSort, List.mem_filter, decide_eq_true_eq]
  have hids : ((s.flows.filter fun r => r.agentId = agentId).map FlowRow.id).Nodup :=
    h.nodup.sublist (List.filter_sublist.map _)
  obtain ⟨stored, hrows, hstored⟩ := h.exists_rows fun r hr => ((hmem r).1 hr).1
  refine ⟨stored, fun g => ⟨fun hg => ?_, fun ⟨hg, hagent⟩ => ?_⟩, ?_, ?_, ?_⟩
  · have hrow : g.row ∈ stored.map Flow.row := List.mem_map_of_mem hg
    rw [hrows] at hrow
    exact ⟨hstored g hg, ((hmem _).1 hrow).2⟩
  · have hrow : g.row ∈ stored.map Flow.row := by
      rw [hrows]
      exact (hmem _).2 ⟨h.mem_flows hg, hagent⟩
    -- The row is that of a stored flow with the same id, and under an id only one is remembered.
    obtain ⟨f, hf, hsame⟩ := List.mem_map.1 hrow
    have hid : f.id = g.id := congrArg FlowRow.id hsame
    have hremembered := hstored f hf
    rw [hid, hg] at hremembered
    exact Option.some.inj hremembered ▸ hf
  · have hmap : stored.map Flow.id = (stored.map Flow.row).map FlowRow.id := by rw [List.map_map]; rfl
    rw [hmap, hrows]
    exact ((List.mergeSort_perm _ flowsInOrder).map FlowRow.id).nodup_iff.2 hids
  · have hsorted := pairwise_sorted hids
    rw [← hrows, List.pairwise_map] at hsorted
    exact hsorted.imp_of_mem fun hf hg hlt => precedes_of_row (h.exists_created hcreated (hstored _ hf))
      (h.exists_created hcreated (hstored _ hg)) hlt
  · rw [Store.flowsOf, ← hrows, List.mapM_map]
    exact Checks.mapM_congr fun g hg => (h.flow_eq (hstored g hg)).symm

end Listed

/-- After any requests of which what they saved was created in four-digit years: an agent is answered
with what the ids are answered with that were saved last for the agent, each of them once, the oldest
first, and those created at one moment in the order of the bytes of their ids.  A flow is as old as the
first one that was saved under its id.  These are the flows themselves if all of them can be read back;
if one of them nests too deep for that, the agent is answered with none of them. -/
theorem flowsOf_serve (triggerPrefix : String) (requests : List Request)
    (hcreated : ∀ g ∈ saves triggerPrefix empty requests, ∀ t, g.createdAt = some t → t.Writable)
    (agentId : String) :
    let s := serve triggerPrefix empty requests
    let saved := saves triggerPrefix empty requests
    ∃ stored : List Flow,
      (∀ g, g ∈ stored ↔ remembered saved g.id = some g ∧ g.agentId = agentId) ∧
        (stored.map Flow.id).Nodup ∧ stored.Pairwise Flow.Precedes ∧
        s.flowsOf agentId = stored.mapM (fun g => s.flow g.id) ∧
        ((∀ g ∈ stored, g.Storable) → s.flowsOf agentId = .ok stored) ∧
        ∀ listed, s.flowsOf agentId = .ok listed → ∀ g ∈ stored, g.Shallow := by
  intro s saved
  have h : Holds s saved := holds_empty.serve requests
  obtain ⟨stored, hmem, hids, hpairwise, hlisted⟩ := h.listing hcreated agentId
  refine ⟨stored, hmem, hids, hpairwise, hlisted, fun hstorable => ?_,
    fun listed hok g hg => h.shallow_of_flowsOf hok ((hmem g).1 hg).1 ((hmem g).1 hg).2⟩
  have hread : ∀ g ∈ stored, s.flow g.id = pure (id g) := fun g hg => by
    have hg' := ((hmem g).1 hg).1
    obtain ⟨first, hfirst, last, hlast, -, -, hsame⟩ := exists_of_remembered hg'
    rw [h.flow_eq hg']
    exact Flow.flow_row (hstorable g hg) (hsame ▸ (h.moments first hfirst).1)
      (hsame ▸ (h.moments last hlast).2)
  rw [hlisted, Checks.mapM_congr hread, List.mapM_pure, List.map_id]
  rfl

def dated (id agentId : String) (created : Instant) : Flow :=
  { daily id (some created) with id, agentId }

section Dated

variable {id agentId : String} {created : Instant}

theorem isValid_dated : ((dated id agentId created).validate "trigger_").isValid = true :=
  isValid_daily id (some created)

theorem storable_dated {stamp : Stamp} (hnow : stamp.now.Writable) (hcreated : created.Writable) :
    (stampFlow stamp (dated id agentId created)).Storable :=
  have h := storable_daily id (some created) hnow hcreated
  ⟨h.nodes, h.declarations, h.nodes_nesting, h.declarations_nesting, h.created, h.updated⟩

end Dated

/-- One flow is the oldest, two were created a nanosecond later, and one now belongs to somebody else. -/
theorem flowsOf_serve_dated :
    let early : Instant := ⟨1704153600, 500000000⟩
    let late : Instant := ⟨1704153600, 500000001⟩
    let requests : List Request := [.save (dawn 19730) (dated "b" "me" late),
      .save (dawn 19730) (dated "gone" "me" early), .save (dawn 19731) (dated "gone" "you" early),
      .save (dawn 19732) (dated "a" "me" late), .save (dawn 19733) (dated "c" "me" early)]
    (serve "trigger_" empty requests).flowsOf "me" = .ok [stampFlow (dawn 19733) (dated "c" "me" early),
      stampFlow (dawn 19732) (dated "a" "me" late), stampFlow (dawn 19730) (dated "b" "me" late)] := by
  intro early late requests
  -- The flows are kept by name, so that no step looks into them.
  obtain ⟨a, ha⟩ : ∃ a, a = stampFlow (dawn 19732) (dated "a" "me" late) := ⟨_, rfl⟩
  obtain ⟨b, hb⟩ : ∃ b, b = stampFlow (dawn 19730) (dated "b" "me" late) := ⟨_, rfl⟩
  obtain ⟨c, hc⟩ : ∃ c, c = stampFlow (dawn 19733) (dated "c" "me" early) := ⟨_, rfl⟩
  rw [← ha, ← hb, ← hc]
  have hsaves : saves "trigger_" empty requests = [b, stampFlow (dawn 19730) (dated "gone" "me" early),
      stampFlow (dawn 19731) (dated "gone" "you" early), a, c] := by
    simp [requests, saves, saved?_save, isValid_dated, ha, hb, hc]
  have hearly : early.Writable := ⟨by decide, .inl (by decide)⟩
  have hlate : late.Writable := ⟨by decide, .inl (by decide)⟩
  have hstorable : ∀ g ∈ saves "trigger_" empty requests, g.Storable := by
    rw [hsaves, ha, hb, hc]
    intro g hg
    simp only [List.mem_cons, List.not_mem_nil, or_false] at hg
    rcases hg with rfl | rfl | rfl | rfl | rfl <;>
      exact storable_dated (writable_dawn (by decide)) ‹_›
  obtain ⟨stored, hmem, -, hordered, -, hlisted, -⟩ := flowsOf_serve "trigger_" requests
    (fun g hg => (hstorable g hg).created) "me"
  rw [hsaves] at hmem hstorable
  have hmem' : ∀ g, g ∈ stored ↔ g ∈ [c, a, b] := by
    intro g
    rw [hmem g]
    simp only [List.mem_cons, List.not_mem_nil, or_false]
    constructor
    · rintro ⟨hg, hagent⟩
      obtain ⟨first, -, last, hlast, -, hid, -⟩ := exists_of_remembered hg
      rw [← hid] at hg
      simp only [List.mem_cons, List.not_mem_nil, or_false] at hlast
      subst ha hb hc
      rcases hlast with rfl | rfl | rfl | rfl | rfl
      · exact .inr (.inr (Option.some.inj hg).symm)
      · exact absurd (Option.some.inj hg ▸ hagent) (by decide)
      · exact absurd (Option.some.inj hg ▸ hagent) (by decide)
      · exact .inr (.inl (Option.some.inj hg).symm)
      · exact .inl (Option.some.inj hg).symm
    · subst ha hb hc
      rintro (rfl | rfl | rfl) <;> exact ⟨rfl, rfl⟩
  have hstored : stored = [c, a, b] := by
    refine Flow.eq_of_precedes hordered ?_ hmem'
    have hbefore : early.Before late := .inr ⟨rfl, by decide⟩
    have hca : c.Precedes a := hc ▸ ha ▸ ⟨early, late, rfl, rfl, .inl hbefore⟩
    have hcb : c.Precedes b := hc ▸ hb ▸ ⟨early, late, rfl, rfl, .inl hbefore⟩
    have hab : a.Precedes b := ha ▸ hb ▸ ⟨late, late, rfl, rfl, .inr ⟨rfl, by decide⟩⟩
    simp [hca, hcb, hab]
  rw [hlisted fun g hg => ?_, hstored]
  rw [hstored] at hg
  simp only [List.mem_cons, List.not_mem_nil, or_false] at hg
  exact hstorable g (by rcases hg with rfl | rfl | rfl <;> simp)

/-- An empty list in so many lists. -/
def wrapped : Nat → Value
  | 0 => .array []
  | n + 1 => .array [wrapped n]

/-- A flow of which the nodes open 128 containers inside one another. -/
def buried : Flow :=
  { dated "buried" "me" ⟨1704153600, 0⟩ with
    nodes := [(Node.new "start" "trigger_daily").configure "items" (wrapped 124)] }

/-- The flow is saved, and its agent is not answered with any flows since. -/
theorem flowsOf_ne_buried :
    saves "trigger_" empty [.save (dawn 19730) buried] = [stampFlow (dawn 19730) buried] ∧
      (stampFlow (dawn 19730) buried).agentId = "me" ∧
      (∀ t, (stampFlow (dawn 19730) buried).createdAt = some t → t.Writable) ∧
      ∀ listed, (serve "trigger_" empty [.save (dawn 19730) buried]).flowsOf "me" ≠ .ok listed := by
  have hvalid : (buried.validate "trigger_").isValid = true := by decide +kernel
  have hsaves : saves "trigger_" empty [.save (dawn 19730) buried] =
      [stampFlow (dawn 19730) buried] := by
    simp [saves, saved?_save, hvalid]
  have hcreated : ∀ t, (stampFlow (dawn 19730) buried).createdAt = some t → t.Writable := by
    intro t ht
    obtain rfl : (⟨1704153600, 0⟩ : Instant) = t := Option.some.inj ht
    exact ⟨by decide, .inl (by decide)⟩
  refine ⟨hsaves, rfl, hcreated, fun listed hok => ?_⟩
  have hholds := @Holds.serve "trigger_" empty [] holds_empty [.save (dawn 19730) buried]
  rw [List.nil_append, hsaves] at hholds
  have hlast : remembered [stampFlow (dawn 19730) buried] "buried" =
      some (stampFlow (dawn 19730) buried) := rfl
  have hshallow : (stampFlow (dawn 19730) buried).Shallow := hholds.shallow_of_flowsOf hok hlast rfl
  have hdeep : ¬(Flow.encodeNodes buried.nodes).nesting < Json.depthLimit := by decide +kernel
  exact hdeep hshallow.nodes

end Store

end Automation
