import Automation.Proofs.Checks
import Automation.Proofs.Store.Row
import Automation.Proofs.Store.Table
import Automation.Store.Basic

/-!
# The store remembers flows by id

`Store.flow_serve` says what a store answers after any requests: for an id the flow that was saved
last under it, created when the first one was, and for an agent the flows that are found by id and
are the agent's.  `Store.flow_saveFlow_iff` says when a flow that has just been saved is found as it
was given back.

What a store ought to remember is computed from the saves alone (`remembered`).  That its rows are
the rows of that is the invariant, `Holds`; each request keeps it whatever was saved, and only reading
the rows asks that the flows be storable.
-/

namespace Automation

namespace Store

inductive Request where
  | save (stamp : Stamp) (f : Flow)
  | find (id : String)
  | list (agentId : String)

inductive Answer where
  | saved (result : Except Failure Flow)
  | found (result : Except Failure Flow)
  | listed (result : Except Failure (List Flow))

namespace Request

def perform (triggerPrefix : String) (s : Store) : Request → Answer × Store
  | .save stamp f =>
    match saveFlow triggerPrefix stamp f s with
    | .ok (g, s') => (.saved (.ok g), s')
    | .error e => (.saved (.error e), s)
  | .find id => (.found (s.flow id), s)
  | .list agentId => (.listed (s.flowsOf agentId), s)

def saved? (triggerPrefix : String) (s : Store) : Request → Option Flow
  | .save stamp f =>
    match saveFlow triggerPrefix stamp f s with
    | .ok _ => some (stampFlow stamp f)
    | .error _ => none
  | _ => none

end Request

def serve (triggerPrefix : String) (s : Store) (requests : List Request) : Store :=
  requests.foldl (fun s q => (q.perform triggerPrefix s).2) s

def answers (triggerPrefix : String) (s : Store) : List Request → List Answer
  | [] => []
  | q :: rest => (q.perform triggerPrefix s).1 :: answers triggerPrefix (q.perform triggerPrefix s).2 rest

def saves (triggerPrefix : String) (s : Store) : List Request → List Flow
  | [] => []
  | q :: rest =>
    (q.saved? triggerPrefix s).toList ++ saves triggerPrefix (q.perform triggerPrefix s).2 rest

/-- What is known of an id after some saves: the last flow saved under it, created when the first one
was. -/
def remembered (saved : List Flow) (id : String) : Option Flow :=
  match (saved.filter fun g => g.id = id).head?, (saved.filter fun g => g.id = id).getLast? with
  | some first, some last => some { last with createdAt := first.createdAt }
  | _, _ => none

variable {triggerPrefix : String} {s : Store}

/-! ## One save -/

theorem saveFlow_eq (stamp : Stamp) (f : Flow) :
    saveFlow triggerPrefix stamp f s =
      (f.validate triggerPrefix).toResult.map fun _ =>
        (stampFlow stamp f, { s with flows := putFlow (stampFlow stamp f).row s.flows }) := by
  rw [saveFlow]
  cases (f.validate triggerPrefix).toResult <;> rfl

theorem saved?_save (stamp : Stamp) (f : Flow) :
    (Request.save stamp f).saved? triggerPrefix s =
      if (f.validate triggerPrefix).isValid then some (stampFlow stamp f) else none := by
  rw [Request.saved?, saveFlow_eq, Report.toResult, Report.isValid]
  cases (f.validate triggerPrefix).errors.isEmpty <;> rfl

theorem eq_of_saveFlow {stamp : Stamp} {f g : Flow} {s' : Store}
    (h : saveFlow triggerPrefix stamp f s = .ok (g, s')) :
    g = stampFlow stamp f ∧ s' = { s with flows := putFlow g.row s.flows } := by
  rw [saveFlow_eq] at h
  cases hvalid : (f.validate triggerPrefix).toResult with
  | error e => simp [hvalid, Except.map] at h
  | ok _ =>
    rw [hvalid] at h
    obtain ⟨rfl, rfl⟩ : stampFlow stamp f = g ∧ _ = s' := by simpa [Except.map] using h
    exact ⟨rfl, rfl⟩

theorem exists_saveFlow {f : Flow} (h : (f.validate triggerPrefix).isValid = true) (stamp : Stamp) :
    ∃ s', saveFlow triggerPrefix stamp f s = .ok (stampFlow stamp f, s') := by
  rw [Report.isValid] at h
  rw [saveFlow_eq, Report.toResult, if_pos h]
  exact ⟨_, rfl⟩

/-- Looking up an id after a row has been put: the row itself, created when the row in its place was,
or what was there. -/
theorem find?_putFlow (new : FlowRow) (rows : List FlowRow) (id : String) :
    (putFlow new rows).find? (fun r => r.id = id) =
      if new.id = id then
        some { new with createdAt :=
          ((rows.find? fun r => r.id = id).map FlowRow.createdAt).getD new.createdAt }
      else rows.find? fun r => r.id = id := by
  rw [putFlow_eq, find?_putRow FlowRow.id_since]
  cases rows.find? fun r => r.id = id <;> rfl

/-- A flow that has just been saved is found but for its moments, whatever was saved before. -/
theorem flow_of_saveFlow {stamp : Stamp} {f g : Flow} {s' : Store}
    (h : saveFlow triggerPrefix stamp f s = .ok (g, s')) (hf : f.Legible) :
    ∃ created updated, s'.flow g.id = .ok { g with createdAt := created, updatedAt := updated } := by
  obtain ⟨rfl, rfl⟩ := eq_of_saveFlow h
  have hlegible : (stampFlow stamp f).Legible :=
    ⟨hf.nodes, hf.declarations, hf.nodes_nesting, hf.declarations_nesting⟩
  have hid : (stampFlow stamp f).row.id = (stampFlow stamp f).id := rfl
  simp only [Store.flow, find?_putFlow, if_pos hid]
  exact ⟨_, _, Flow.flow_row_at hlegible _ (stampFlow stamp f).row.updatedAt⟩

theorem remembered_append (saved : List Flow) (g : Flow) (id : String) :
    remembered (saved ++ [g]) id =
      if g.id = id then
        some { g with createdAt := ((remembered saved id).map Flow.createdAt).getD g.createdAt }
      else remembered saved id := by
  by_cases h : g.id = id
  · rw [if_pos h, remembered, remembered, List.filter_append,
      List.filter_cons_of_pos (by simp [h]), List.filter_nil, List.getLast?_concat]
    cases hown : saved.filter fun g => g.id = id with
    | nil => rfl
    | cons first rest =>
      obtain ⟨last, hlast⟩ := Option.isSome_iff_exists.1
        (List.getLast?_isSome.2 (List.cons_ne_nil first rest))
      rw [hlast]
      rfl
  · rw [if_neg h, remembered, remembered, List.filter_append,
      List.filter_cons_of_neg (by simp [h]), List.filter_nil, List.append_nil]

theorem ids_putFlow (new : FlowRow) (rows : List FlowRow) :
    (putFlow new rows).map FlowRow.id =
      if new.id ∈ rows.map FlowRow.id then rows.map FlowRow.id
      else rows.map FlowRow.id ++ [new.id] := by
  rw [putFlow_eq, ids_putRow FlowRow.id_since]

/-! ## A history of requests -/

/-- The rows of a store are those of what there is to remember of some saves, each id has one row, and
what was saved has moments. -/
structure Holds (s : Store) (saved : List Flow) : Prop where
  find?_eq : ∀ id, (s.flows.find? fun r => r.id = id) = (remembered saved id).map Flow.row
  nodup : (s.flows.map FlowRow.id).Nodup
  moments : ∀ g ∈ saved, g.createdAt ≠ none ∧ g.updatedAt ≠ none

theorem holds_empty : Holds empty [] :=
  ⟨fun _ => rfl, List.nodup_nil, fun _ hg => by cases hg⟩

variable (triggerPrefix s) in
theorem perform_flows (q : Request) :
    (q.perform triggerPrefix s).2.flows =
      match q.saved? triggerPrefix s with
      | some g => putFlow g.row s.flows
      | none => s.flows := by
  cases q with
  | save stamp f =>
    rw [Request.perform, Request.saved?, saveFlow_eq]
    cases (f.validate triggerPrefix).toResult <;> rfl
  | find id => rfl
  | list agentId => rfl

theorem moments_of_saved? {q : Request} {g : Flow} (h : q.saved? triggerPrefix s = some g) :
    g.createdAt ≠ none ∧ g.updatedAt ≠ none := by
  cases q with
  | save stamp f =>
    rw [saved?_save, Option.ite_none_right_eq_some] at h
    rw [← Option.some.inj h.2]
    exact ⟨Option.some_ne_none _, Option.some_ne_none _⟩
  | find id => cases h
  | list agentId => cases h

variable {saved : List Flow}

variable (triggerPrefix) in
theorem Holds.perform (h : Holds s saved) (q : Request) :
    Holds (q.perform triggerPrefix s).2 (saved ++ (q.saved? triggerPrefix s).toList) := by
  have hflows := perform_flows triggerPrefix s q
  cases hq : q.saved? triggerPrefix s with
  | none =>
    rw [hq] at hflows
    rw [Option.toList_none, List.append_nil]
    exact ⟨by rw [hflows]; exact h.find?_eq, by rw [hflows]; exact h.nodup, h.moments⟩
  | some g =>
    rw [hq] at hflows
    rw [Option.toList_some]
    refine ⟨fun id => ?_, ?_, fun g' hg' => ?_⟩
    · rw [hflows, find?_putFlow, remembered_append, h.find?_eq]
      by_cases hid : g.id = id
      · rw [if_pos hid, if_pos (show g.row.id = id from hid)]
        cases remembered saved id <;> rfl
      · rw [if_neg hid, if_neg (show ¬g.row.id = id from hid)]
    · rw [hflows, ids_putFlow]
      by_cases hmem : g.row.id ∈ s.flows.map FlowRow.id
      · rw [if_pos hmem]
        exact h.nodup
      · rw [if_neg hmem, List.nodup_append]
        refine ⟨h.nodup, by simp, fun a ha b hb => ?_⟩
        rw [List.mem_singleton.1 hb]
        rintro rfl
        exact hmem ha
    · rcases List.mem_append.1 hg' with hold | hnew
      · exact h.moments g' hold
      · rw [List.mem_singleton.1 hnew]
        exact moments_of_saved? hq

theorem Holds.serve (h : Holds s saved) (requests : List Request) :
    Holds (serve triggerPrefix s requests) (saved ++ saves triggerPrefix s requests) := by
  induction requests generalizing s saved with
  | nil => rwa [saves, List.append_nil]
  | cons q rest ih =>
    rw [saves, ← List.append_assoc]
    exact ih (h.perform triggerPrefix q)

/-! ## What the rows are read as -/

theorem exists_of_remembered {id : String} {g : Flow} (h : remembered saved id = some g) :
    ∃ first ∈ saved, ∃ last ∈ saved, first.id = id ∧ last.id = id ∧
      g = { last with createdAt := first.createdAt } := by
  rw [remembered] at h
  cases hfirst : (saved.filter fun g => g.id = id).head? with
  | none => simp [hfirst] at h
  | some first =>
    cases hlast : (saved.filter fun g => g.id = id).getLast? with
    | none => simp [hlast] at h
    | some last =>
      have hfirst' := List.mem_filter.1 (List.mem_of_head? hfirst)
      have hlast' := List.mem_filter.1 (List.mem_of_getLast? hlast)
      simp only [hfirst, hlast, Option.some.injEq] at h
      exact ⟨first, hfirst'.1, last, hlast'.1, by simpa using hfirst'.2, by simpa using hlast'.2, h.symm⟩

theorem find?_of_mem {rows : List FlowRow} (hnodup : (rows.map FlowRow.id).Nodup) {r : FlowRow}
    (hr : r ∈ rows) : (rows.find? fun q => q.id = r.id) = some r := by
  induction rows with
  | nil => cases hr
  | cons q rows ih =>
    rw [List.map_cons, List.nodup_cons] at hnodup
    rcases List.mem_cons.1 hr with rfl | hrest
    · rw [List.find?_cons_of_pos (by simp)]
    · have hne : q.id ≠ r.id := fun heq => hnodup.1 (heq ▸ List.mem_map_of_mem hrest)
      rw [List.find?_cons_of_neg (by simp [hne]), ih hnodup.2 hrest]

/-- A row is that of the flow that there is to remember of its id. -/
theorem Holds.exists_of_mem (h : Holds s saved) {r : FlowRow} (hr : r ∈ s.flows) :
    ∃ g, remembered saved r.id = some g ∧ g.row = r := by
  have hfind := find?_of_mem h.nodup hr
  rw [h.find?_eq, Option.map_eq_some_iff] at hfind
  exact hfind

section Reading

variable (h : Holds s saved)
include h

section Id

variable {id : String} (hstorable : ∀ g ∈ saved, g.id = id → g.Storable)
include hstorable

theorem flow_row_of_remembered {g : Flow} (hg : remembered saved id = some g) :
    g.row.flow = .ok g := by
  obtain ⟨first, hfirst, last, hlast, hfirstId, hlastId, rfl⟩ := exists_of_remembered hg
  -- The flow remembered is saved as such by none of the requests: its moments are of two of them.
  have hs := hstorable last hlast hlastId
  exact Flow.flow_row
    ⟨hs.nodes, hs.declarations, hs.nodes_nesting, hs.declarations_nesting,
      (hstorable first hfirst hfirstId).created, hs.updated⟩
    (h.moments first hfirst).1 (h.moments last hlast).2

/-- An id is answered with what there is to remember of it. -/
theorem Holds.flow :
    s.flow id =
      match remembered saved id with
      | some g => .ok g
      | none => .error (.flowNotFound id) := by
  rw [Store.flow, h.find?_eq]
  cases hg : remembered saved id with
  | none => rfl
  | some g => exact flow_row_of_remembered h hstorable hg

end Id

/-- An agent is answered with what there is to remember of ids and is the agent's. -/
theorem Holds.flowsOf (hstorable : ∀ g ∈ saved, g.Storable) (agentId : String) :
    ∃ listed, s.flowsOf agentId = .ok listed ∧
      ∀ g, g ∈ listed ↔ g.agentId = agentId ∧ s.flow g.id = .ok g := by
  have hid : ∀ id, ∀ g ∈ saved, g.id = id → g.Storable := fun _ g hg _ => hstorable g hg
  have hread : ∀ r ∈ (s.flows.filter fun r => r.agentId = agentId).mergeSort flowsInOrder,
      ∃ g, r.flow = .ok g := by
    intro r hr
    obtain ⟨hmem, -⟩ := List.mem_filter.1 (List.mem_mergeSort.1 hr)
    obtain ⟨g, hg, rfl⟩ := h.exists_of_mem hmem
    exact ⟨g, flow_row_of_remembered h (hid _) hg⟩
  obtain ⟨listed, hlisted, hmem⟩ := Checks.exists_mapM_ok hread
  refine ⟨listed, hlisted, fun g => ?_⟩
  rw [hmem g, h.flow (hid _)]
  constructor
  · rintro ⟨r, hr, hrow⟩
    obtain ⟨hin, hagent⟩ := List.mem_filter.1 (List.mem_mergeSort.1 hr)
    obtain ⟨g', hg', rfl⟩ := h.exists_of_mem hin
    have hsame := (flow_row_of_remembered h (hid _) hg').symm.trans hrow
    obtain rfl : g' = g := Except.ok.inj hsame
    rw [show g'.id = g'.row.id from rfl, hg']
    exact ⟨of_decide_eq_true hagent, rfl⟩
  · rintro ⟨hagent, hflow⟩
    cases hg : remembered saved g.id with
    | none => simp [hg] at hflow
    | some g' =>
      obtain rfl : g' = g := by simpa [hg] using hflow
      have hfind := h.find?_eq g'.id
      rw [hg] at hfind
      have hin := List.mem_of_find?_eq_some hfind
      exact ⟨g'.row, List.mem_mergeSort.2 (List.mem_filter.2 ⟨hin, decide_eq_true hagent⟩),
        flow_row_of_remembered h (hid _) hg⟩

/-- A flow that has just been saved is found with the moment at which its id was first created. -/
theorem Holds.flow_save {stamp : Stamp} {f g : Flow} {s' : Store}
    (hstorable : ∀ g ∈ saved, g.id = (stampFlow stamp f).id → g.Storable)
    (hf : (stampFlow stamp f).Storable) (hsave : saveFlow triggerPrefix stamp f s = .ok (g, s')) :
    s'.flow g.id =
      .ok { g with createdAt := ((s.flow g.id).toOption.map Flow.createdAt).getD g.createdAt } := by
  obtain ⟨rfl, -⟩ := eq_of_saveFlow hsave
  have h' := h.perform triggerPrefix (.save stamp f)
  simp only [Request.perform, Request.saved?, hsave] at h'
  have hown : ∀ g ∈ saved ++ (some (stampFlow stamp f)).toList, g.id = (stampFlow stamp f).id →
      g.Storable := List.forall_mem_append.2 ⟨hstorable, fun g hg _ => List.mem_singleton.1 hg ▸ hf⟩
  have hflow := h'.flow hown
  rw [Option.toList_some, remembered_append, if_pos rfl] at hflow
  rw [hflow, h.flow hstorable]
  cases remembered saved (stampFlow stamp f).id <;> rfl

end Reading

/-! ## What a store answers -/

/-- After any requests of which what they saved can be stored: an id under which nothing was saved is
not found; any other is answered with the flow that was saved last under it, created when the first
one was; an agent is answered with the flows that are found by id and are the agent's; a save that is
refused changes no later answer; and a save changes nothing about other ids. -/
theorem flow_serve (triggerPrefix : String) (requests : List Request)
    (hstorable : ∀ g ∈ saves triggerPrefix empty requests, g.Storable) :
    let s := serve triggerPrefix empty requests
    let under (id : String) := (saves triggerPrefix empty requests).filter fun g => g.id = id
    (∀ id, under id = [] → s.flow id = .error (.flowNotFound id)) ∧
      (∀ id first last, (under id).head? = some first → (under id).getLast? = some last →
        s.flow id = .ok { last with createdAt := first.createdAt }) ∧
      (∀ agentId, ∃ listed, s.flowsOf agentId = .ok listed ∧
        ∀ g, g ∈ listed ↔ g.agentId = agentId ∧ s.flow g.id = .ok g) ∧
      (∀ stamp f e, saveFlow triggerPrefix stamp f s = .error e → ∀ later,
        answers triggerPrefix s (.save stamp f :: later) =
          .saved (.error e) :: answers triggerPrefix s later) ∧
      ∀ stamp f g s', saveFlow triggerPrefix stamp f s = .ok (g, s') → ∀ id, id ≠ g.id →
        s'.flow id = s.flow id := by
  have h : Holds (serve triggerPrefix empty requests) (saves triggerPrefix empty requests) :=
    holds_empty.serve requests
  intro s under
  have hid : ∀ id, ∀ g ∈ saves triggerPrefix empty requests, g.id = id → g.Storable :=
    fun _ g hg _ => hstorable g hg
  refine ⟨fun id hnone => ?_, fun id first last hfirst hlast => ?_, h.flowsOf hstorable,
    fun stamp f e he later => ?_, fun stamp f g s' hsave id hid => ?_⟩
  · rw [h.flow (hid id), remembered]
    simp only [show (saves triggerPrefix empty requests).filter (fun g => g.id = id) = [] from hnone]
    rfl
  · rw [h.flow (hid id), remembered]
    simp only [show ((saves triggerPrefix empty requests).filter fun g => g.id = id).head? =
      some first from hfirst, show ((saves triggerPrefix empty requests).filter
        fun g => g.id = id).getLast? = some last from hlast]
  · simp only [answers, Request.perform, he]
  · obtain ⟨-, rfl⟩ := eq_of_saveFlow hsave
    have hrow : ¬g.row.id = id := Ne.symm hid
    simp only [Store.flow, find?_putFlow, if_neg hrow]

def daily (name : String) (created : Option Instant) : Flow :=
  { Flow.new name with
    id := "daily"
    nodes := [.new "start" "trigger_daily"]
    createdAt := created }

def dawn (day : Int) : Stamp := ⟨⟨day * 86400, 0⟩, "fresh"⟩

section Daily

variable (name : String) (created : Option Instant)

theorem isValid_daily : ((daily name created).validate "trigger_").isValid = true := by
  show ((daily "daily" none).validate "trigger_").isValid = true
  decide +kernel

theorem storable_daily {stamp : Stamp} (hnow : stamp.now.Writable)
    (hcreated : (created.getD stamp.now).Writable) :
    (stampFlow stamp (daily name created)).Storable where
  nodes n hn := by
    rw [List.mem_singleton.1 hn]
    exact ⟨⟨rfl, rfl⟩, .object .nil fun m hm => by cases hm⟩
  declarations v hv := by cases hv
  nodes_nesting := by
    show (Flow.encodeNodes [.new "start" "trigger_daily"]).nesting < Json.depthLimit
    decide
  declarations_nesting := by
    show (Flow.encodeVariables []).nesting < Json.depthLimit
    decide
  created t ht := Option.some.inj ht ▸ hcreated
  updated t ht := Option.some.inj ht ▸ hnow

end Daily

theorem writable_dawn {day : Int} (h : 0 ≤ (dawn day).now.year ∧ (dawn day).now.year ≤ 9999) :
    (dawn day).now.Writable :=
  ⟨h, .inl (by decide : 0 < 1000000000)⟩

/-- A flow is saved, and saved again under another name three days later.  Then one is refused that has
no trigger. -/
theorem flow_serve_daily :
    let requests : List Request := [.save (dawn 19724) (daily "daily" none),
      .save (dawn 19727) (daily "renamed" none), .find "daily", .save (dawn 19728) (.new "empty")]
    (∀ g ∈ saves "trigger_" empty requests, g.Storable) ∧
      (serve "trigger_" empty requests).flow "daily" = .ok { daily "renamed" none with
        createdAt := some (dawn 19724).now, updatedAt := some (dawn 19727).now } ∧
      (serve "trigger_" empty requests).flow "fresh" = .error (.flowNotFound "fresh") := by
  intro requests
  have hsaves : saves "trigger_" empty requests = [stampFlow (dawn 19724) (daily "daily" none),
      stampFlow (dawn 19727) (daily "renamed" none)] := by
    have hempty : ((Flow.new "empty").validate "trigger_").isValid = false := by decide +kernel
    have hfind : ∀ s, (Request.find "daily").saved? "trigger_" s = none := fun _ => rfl
    simp [requests, saves, saved?_save, hfind, isValid_daily, hempty]
  have hfirst : (dawn 19724).now.Writable := writable_dawn (by decide)
  have hlast : (dawn 19727).now.Writable := writable_dawn (by decide)
  have hstorable : ∀ g ∈ saves "trigger_" empty requests, g.Storable := by
    rw [hsaves]
    intro g hg
    rcases List.mem_cons.1 hg with rfl | hg
    · exact storable_daily _ _ hfirst hfirst
    · rw [List.mem_singleton.1 hg]
      exact storable_daily _ _ hlast hlast
  obtain ⟨hnone, hfound, -⟩ := flow_serve "trigger_" requests hstorable
  simp only [hsaves] at hnone hfound
  exact ⟨hstorable, hfound "daily" _ _ rfl rfl, hnone "fresh" (by decide)⟩

/-- A flow that has just been saved is found with the moment at which its id was first created, and so
it is found as it was given back exactly if that moment is the one that it was given back with.  What
was saved under other ids does not matter. -/
theorem flow_saveFlow_iff (triggerPrefix : String) (requests : List Request) (stamp : Stamp) (f : Flow)
    (hstorable : ∀ g ∈ saves triggerPrefix empty requests, g.id = (stampFlow stamp f).id → g.Storable)
    (hf : (stampFlow stamp f).Storable) :
    let s := serve triggerPrefix empty requests
    ∀ g s', saveFlow triggerPrefix stamp f s = .ok (g, s') →
      s'.flow g.id =
          .ok { g with createdAt := ((s.flow g.id).toOption.map Flow.createdAt).getD g.createdAt } ∧
        (s'.flow g.id = .ok g ↔ ∀ old, s.flow g.id = .ok old → old.createdAt = g.createdAt) := by
  intro s g s' hsave
  have h : Holds s (saves triggerPrefix empty requests) := holds_empty.serve requests
  have hflow := h.flow_save hstorable hf hsave
  refine ⟨hflow, ?_⟩
  rw [hflow, Except.ok.injEq]
  constructor
  · intro hsame old hold
    have hcreated := congrArg Flow.createdAt hsame
    rw [hold] at hcreated
    exact hcreated
  · intro hsame
    cases hold : s.flow g.id with
    | error e => rfl
    | ok old =>
      have hcreated : ((Except.ok old : Except Failure Flow).toOption.map Flow.createdAt).getD
          g.createdAt = g.createdAt := hsame old hold
      rw [hcreated]

section Resaved

theorem saves_daily : saves "trigger_" empty [.save (dawn 19724) (daily "daily" none)] =
    [stampFlow (dawn 19724) (daily "daily" none)] := by
  simp [saves, saved?_save, isValid_daily]

theorem storable_of_mem_saves_daily :
    ∀ g ∈ saves "trigger_" empty [.save (dawn 19724) (daily "daily" none)], g.Storable := by
  have hfirst : (dawn 19724).now.Writable := writable_dawn (by decide)
  rw [saves_daily]
  intro g hg
  rw [List.mem_singleton.1 hg]
  exact storable_daily _ _ hfirst hfirst

theorem holds_daily : Holds (serve "trigger_" empty [.save (dawn 19724) (daily "daily" none)])
    (saves "trigger_" empty [.save (dawn 19724) (daily "daily" none)]) :=
  holds_empty.serve _

theorem flow_daily : (serve "trigger_" empty [.save (dawn 19724) (daily "daily" none)]).flow "daily" =
    .ok (stampFlow (dawn 19724) (daily "daily" none)) := by
  rw [holds_daily.flow fun g hg _ => storable_of_mem_saves_daily g hg, saves_daily]
  rfl

/-- A flow that is saved again with the moment of its creation is found as it is given back. -/
theorem flow_saveFlow_iff_daily :
    let s := serve "trigger_" empty [.save (dawn 19724) (daily "daily" none)]
    let again := daily "renamed" (some (dawn 19724).now)
    ∃ s', saveFlow "trigger_" (dawn 19727) again s = .ok (stampFlow (dawn 19727) again, s') ∧
      s'.flow "daily" = .ok (stampFlow (dawn 19727) again) := by
  intro s again
  obtain ⟨s', hsave⟩ := exists_saveFlow (s := s) (isValid_daily "renamed" (some (dawn 19724).now))
    (dawn 19727)
  have hfirst : (dawn 19724).now.Writable := writable_dawn (by decide)
  have hlast : (dawn 19727).now.Writable := writable_dawn (by decide)
  have hiff := (flow_saveFlow_iff "trigger_" [.save (dawn 19724) (daily "daily" none)] (dawn 19727)
    again (fun g hg _ => storable_of_mem_saves_daily g hg) (storable_daily _ _ hlast hfirst) _ s' hsave).2
  refine ⟨s', hsave, hiff.2 fun old hold => ?_⟩
  rw [← Except.ok.inj (flow_daily.symm.trans hold)]
  rfl

/-- A flow that is saved again with another moment of creation is not found as it is given back. -/
theorem flow_ne_resaved :
    let s := serve "trigger_" empty [.save (dawn 19724) (daily "daily" none)]
    ∃ g s', saveFlow "trigger_" (dawn 19727) (daily "daily" (some (dawn 19720).now)) s = .ok (g, s') ∧
      s'.flow g.id ≠ .ok g := by
  intro s
  obtain ⟨s', hsave⟩ := exists_saveFlow (s := s) (isValid_daily "daily" (some (dawn 19720).now))
    (dawn 19727)
  refine ⟨_, s', hsave, fun hsame => ?_⟩
  have hfirst : (dawn 19720).now.Writable := writable_dawn (by decide)
  have hlast : (dawn 19727).now.Writable := writable_dawn (by decide)
  have hflow := holds_daily.flow_save (fun g hg _ => storable_of_mem_saves_daily g hg)
    (storable_daily "daily" (some (dawn 19720).now) hlast hfirst) hsave
  rw [hsame, Except.ok.injEq] at hflow
  have hcreated := congrArg Flow.createdAt hflow
  rw [show (stampFlow (dawn 19727) (daily "daily" (some (dawn 19720).now))).id = "daily" from rfl,
    flow_daily] at hcreated
  exact absurd hcreated (by decide)

end Resaved

end Store

end Automation
