import Automation.Graph.Cycle
import Mathlib.Logic.Relation
import Mathlib.Data.List.Nodup

/-!
# The search for cycles is exact

An id reaches another if edges lead from the one to the other, and it lies on a cycle if it takes at
least one edge to come back to it.  A search from some roots finds nothing exactly if no id that they
reach lies on a cycle (`findCycle?_eq_none_iff`), and an id that it finds is reached from a root and
lies on a cycle (`onCycle_of_findCycle?`).

What is done is `Settled`: each id was done after all ids that its edges lead to, so no cycle passes
through any of them.  The path of a search leads from its root to where it stands, so an edge back to
the path closes a cycle.  `Searching` holds both together, with a lemma for each thing that a turn of
the search does to the path.
-/

namespace Automation.Graph

def Joined (edges : List Edge) (a b : String) : Prop := ∃ e ∈ edges, e.source = a ∧ e.target = b

abbrev Reaches (edges : List Edge) : String → String → Prop := Relation.ReflTransGen (Joined edges)

def OnCycle (edges : List Edge) (id : String) : Prop := Relation.TransGen (Joined edges) id id

variable {edges : List Edge} {root : String} {path : List Visit} {done : List String}

theorem mem_targets_iff {a b : String} : b ∈ targets edges a ↔ Joined edges a b := by
  simp only [targets, leaving, List.mem_map, List.mem_filter, decide_eq_true_eq, Joined]
  constructor
  · rintro ⟨e, ⟨hmem, hsrc⟩, htgt⟩
    exact ⟨e, hmem, hsrc, htgt⟩
  · rintro ⟨e, hmem, hsrc, htgt⟩
    exact ⟨e, ⟨hmem, hsrc⟩, htgt⟩

/-! ## What is done -/

/-- Ids in the order in which they were done, the last one in front: each leads to ids that were done
before it and to no others. -/
inductive Settled (edges : List Edge) : List String → Prop
  | nil : Settled edges []
  | cons {id : String} {done : List String} (hnew : id ∉ done)
    (hout : ∀ b, Joined edges id b → b ∈ done) (hdone : Settled edges done) :
    Settled edges (id :: done)

namespace Settled

theorem mem_of_joined (hs : Settled edges done) {a b : String} (ha : a ∈ done)
    (hab : Joined edges a b) : b ∈ done := by
  induction hs with
  | nil => cases ha
  | cons hnew hout _ ih =>
    rcases List.mem_cons.mp ha with rfl | ha
    · exact List.mem_cons_of_mem _ (hout b hab)
    · exact List.mem_cons_of_mem _ (ih ha)

theorem mem_of_reaches (hs : Settled edges done) {a b : String} (ha : a ∈ done)
    (hab : Reaches edges a b) : b ∈ done := by
  induction hab with
  | refl => exact ha
  | tail _ hlast ih => exact hs.mem_of_joined ih hlast

theorem nodup (hs : Settled edges done) : done.Nodup := by
  induction hs with
  | nil => exact List.nodup_nil
  | cons hnew _ _ ih => exact List.nodup_cons.mpr ⟨hnew, ih⟩

/-- No cycle passes through what is done: the id of a cycle that was done first would lead to one
that was done before it. -/
theorem not_onCycle (hs : Settled edges done) {a : String} (ha : a ∈ done) : ¬OnCycle edges a := by
  induction hs with
  | nil => cases ha
  | cons hnew hout hdone ih =>
    rcases List.mem_cons.mp ha with rfl | ha
    · intro hcycle
      -- The first edge of the cycle leads to what was done before `a`, and so does all that follows.
      obtain ⟨b, hab, hba⟩ := Relation.TransGen.head'_iff.mp hcycle
      exact hnew (hdone.mem_of_reaches (hout b hab) hba)
    · exact ih ha

end Settled

/-! ## The path of a search -/

/-- Every edge that leaves the path is still to be tried or leads to an id that is known: one that is
done or lies further up on the path. -/
def Covered (edges : List Edge) : (known : List String) → List Visit → Prop
  | _, [] => True
  | known, (id, rest) :: path =>
    (∀ b, Joined edges id b → b ∈ rest ∨ b ∈ known) ∧ Covered edges (id :: known) path

theorem Covered.mono {known known' : List String} (hk : known ⊆ known')
    (hc : Covered edges known path) : Covered edges known' path := by
  induction path generalizing known known' with
  | nil => trivial
  | cons v path ih =>
    obtain ⟨hout, hpath⟩ := hc
    refine ⟨fun b hb => (hout b hb).imp_right fun h => hk h, ih ?_ hpath⟩
    exact List.cons_subset_cons _ hk

/-- What holds wherever a search stands: the path leads up from the root by edges, the ids that it has
still to try are targets, no id is on the path twice or done before its time, and what is done is
settled. -/
structure Searching (edges : List Edge) (root : String) (path : List Visit) (done : List String) :
    Prop where
  reached : ∀ v ∈ path, Reaches edges root v.1
  upward : path.Pairwise fun upper lower => Reaches edges lower.1 upper.1
  untried : ∀ v ∈ path, ∀ b ∈ v.2, Joined edges v.1 b
  nodup : (path.map Prod.fst ++ done).Nodup
  covered : Covered edges done path
  settled : Settled edges done

namespace Searching

theorem start (hs : Settled edges done) (hroot : root ∉ done) :
    Searching edges root [(root, targets edges root)] done where
  reached := by
    intro v hv
    rw [List.mem_singleton.mp hv]
  upward := List.pairwise_singleton _ _
  untried := by
    intro v hv b hb
    rw [List.mem_singleton.mp hv] at hb ⊢
    exact mem_targets_iff.mp hb
  nodup := List.nodup_cons.mpr ⟨hroot, hs.nodup⟩
  covered := ⟨fun _ hb => Or.inl (mem_targets_iff.mpr hb), trivial⟩
  settled := hs

variable {id next : String} {rest : List String}

theorem pop (h : Searching edges root ((id, []) :: path) done) :
    Searching edges root path (id :: done) := by
  have hnodup : (id :: (path.map Prod.fst ++ done)).Nodup := h.nodup
  have hfresh : id ∉ path.map Prod.fst ++ done := (List.nodup_cons.mp hnodup).1
  obtain ⟨hout, hcovered⟩ := h.covered
  -- Nothing is left to try, so all edges of the id lead to what is done, as `Settled` asks.
  exact
    { reached := fun v hv => h.reached v (List.mem_cons_of_mem _ hv)
      upward := (List.pairwise_cons.mp h.upward).2
      untried := fun v hv => h.untried v (List.mem_cons_of_mem _ hv)
      nodup := List.perm_middle.nodup_iff.mpr hnodup
      covered := hcovered
      settled := .cons (fun hmem => hfresh (List.mem_append_right _ hmem))
        (fun b hb => (hout b hb).resolve_left List.not_mem_nil) h.settled }

theorem skip (h : Searching edges root ((id, next :: rest) :: path) done) (hdone : next ∈ done) :
    Searching edges root ((id, rest) :: path) done := by
  obtain ⟨hout, hcovered⟩ := h.covered
  refine
    { reached := List.forall_mem_cons.mpr (List.forall_mem_cons.mp h.reached)
      upward := List.pairwise_cons.mpr (List.pairwise_cons.mp h.upward)
      untried := ?untried
      nodup := h.nodup
      covered := ⟨fun b hb => ?covered, hcovered⟩
      settled := h.settled }
  case untried =>
    obtain ⟨hhere, hbelow⟩ := List.forall_mem_cons.mp h.untried
    exact List.forall_mem_cons.mpr ⟨fun b hb => hhere b (List.mem_cons_of_mem _ hb), hbelow⟩
  case covered =>
    rcases hout b hb with hrest | hknown
    · rcases List.mem_cons.mp hrest with rfl | hrest
      · exact Or.inr hdone
      · exact Or.inl hrest
    · exact Or.inr hknown

theorem push (h : Searching edges root ((id, next :: rest) :: path) done)
    (hnew : next ∉ (id :: path.map Prod.fst) ++ done) :
    Searching edges root ((next, targets edges next) :: (id, rest) :: path) done := by
  obtain ⟨hid, hpath⟩ := List.forall_mem_cons.mp h.reached
  obtain ⟨hhere, hbelow⟩ := List.forall_mem_cons.mp h.untried
  obtain ⟨hup, hupward⟩ := List.pairwise_cons.mp h.upward
  obtain ⟨hout, hcovered⟩ := h.covered
  have hjoined : Joined edges id next := hhere next List.mem_cons_self
  refine
    { reached := List.forall_mem_cons.mpr ⟨hid.tail hjoined, List.forall_mem_cons.mpr ⟨hid, hpath⟩⟩
      upward := List.pairwise_cons.mpr ⟨?upward, List.pairwise_cons.mpr ⟨hup, hupward⟩⟩
      untried := List.forall_mem_cons.mpr ⟨fun b hb => mem_targets_iff.mp hb,
        List.forall_mem_cons.mpr ⟨fun b hb => hhere b (List.mem_cons_of_mem _ hb), hbelow⟩⟩
      nodup := List.nodup_cons.mpr ⟨hnew, h.nodup⟩
      covered := ⟨fun b hb => Or.inl (mem_targets_iff.mpr hb), fun b hb => ?covered,
        hcovered.mono ?known⟩
      settled := h.settled }
  case upward =>
    exact List.forall_mem_cons.mpr ⟨.single hjoined, fun v hv => (hup v hv).tail hjoined⟩
  case covered =>
    rcases hout b hb with hrest | hknown
    · rcases List.mem_cons.mp hrest with rfl | hrest
      · exact Or.inr List.mem_cons_self
      · exact Or.inl hrest
    · exact Or.inr (List.mem_cons_of_mem _ hknown)
  case known => exact List.cons_subset_cons _ (List.subset_cons_self ..)

theorem onCycle (h : Searching edges root ((id, next :: rest) :: path) done)
    (hback : next ∈ id :: path.map Prod.fst) : Reaches edges root next ∧ OnCycle edges next := by
  obtain ⟨hid, hpath⟩ := List.forall_mem_cons.mp h.reached
  have hjoined : Joined edges id next := h.untried _ List.mem_cons_self next List.mem_cons_self
  refine ⟨hid.tail hjoined, ?_⟩
  rcases List.mem_cons.mp hback with rfl | hmem
  · exact .single hjoined
  · obtain ⟨v, hv, rfl⟩ := List.mem_map.mp hmem
    have hup : Reaches edges v.1 id := (List.pairwise_cons.mp h.upward).1 v hv
    exact Relation.TransGen.tail' hup hjoined

end Searching

/-! ## The search -/

/-- An id that a search finds is reached from its root and lies on a cycle.  If it finds none, all
ids on its path are done. -/
theorem search_exact (h : Searching edges root path done) :
    match search edges path done with
    | (some id, _) => Reaches edges root id ∧ OnCycle edges id
    | (none, later) => Settled edges later ∧ done ⊆ later ∧ path.map Prod.fst ⊆ later := by
  fun_induction search edges path done with
  | case1 done => exact ⟨h.settled, List.Subset.refl _, List.nil_subset _⟩
  | case2 done id path ih =>
    have hpop := ih h.pop
    split at hpop
    · exact hpop
    · obtain ⟨hsettled, hdone, hpath⟩ := hpop
      have hid := hdone List.mem_cons_self
      exact ⟨hsettled, fun x hx => hdone (List.mem_cons_of_mem _ hx),
        List.cons_subset.mpr ⟨hid, hpath⟩⟩
  | case3 done id next rest path hback =>
    refine h.onCycle ?_
    simp only [List.any_cons, List.any_eq_true, Bool.or_eq_true, decide_eq_true_eq] at hback
    rcases hback with rfl | ⟨v, hv, rfl⟩
    · exact List.mem_cons_self
    · exact List.mem_cons_of_mem _ (List.mem_map_of_mem hv)
  | case4 done id next rest path hback hdone ih =>
    exact ih (h.skip (by simpa using hdone))
  | case5 done id next rest path hback hdone ih =>
    have hpush := ih (h.push (new_of_not_any hback hdone))
    split at hpush
    · exact hpush
    · exact ⟨hpush.1, hpush.2.1, (List.cons_subset.mp hpush.2.2).2⟩

/-- An id that the searches from some roots find is reached from one of them and lies on a cycle.  If
they find none, the roots are among ids through which no cycle passes. -/
theorem searchRoots_exact {roots : List String} (hs : Settled edges done) :
    match searchRoots edges roots done with
    | some id => ∃ root ∈ roots, Reaches edges root id ∧ OnCycle edges id
    | none => ∃ later, Settled edges later ∧ done ⊆ later ∧ roots ⊆ later := by
  induction roots generalizing done with
  | nil => exact ⟨done, hs, List.Subset.refl _, List.nil_subset _⟩
  | cons root roots ih =>
    rw [searchRoots]
    by_cases hroot : root ∈ done
    · rw [if_pos (by simpa using hroot)]
      have hrest := ih hs
      split at hrest
      · obtain ⟨r, hr, hfound⟩ := hrest
        exact ⟨r, List.mem_cons_of_mem _ hr, hfound⟩
      · obtain ⟨later, hlater, hdone, hroots⟩ := hrest
        exact ⟨later, hlater, hdone, List.cons_subset.mpr ⟨hdone hroot, hroots⟩⟩
    · rw [if_neg (by simpa using hroot)]
      have hsearch := search_exact (Searching.start hs hroot)
      rcases hr : search edges [(root, targets edges root)] done with ⟨_ | id, later⟩
      · rw [hr] at hsearch
        obtain ⟨hsettled, hdone, hpath⟩ := hsearch
        have hrest := ih hsettled
        simp only
        split at hrest
        · obtain ⟨r, hmem, hfound⟩ := hrest
          exact ⟨r, List.mem_cons_of_mem _ hmem, hfound⟩
        · obtain ⟨last, hlast, hlater, hroots⟩ := hrest
          have hmem : root ∈ last := hlater (hpath List.mem_cons_self)
          exact ⟨last, hlast, fun x hx => hlater (hdone hx), List.cons_subset.mpr ⟨hmem, hroots⟩⟩
      · rw [hr] at hsearch
        exact ⟨root, List.mem_cons_self, hsearch⟩

end Automation.Graph

namespace Automation.Flow

open Automation.Graph

variable {f : Flow} {roots : List String}

theorem onCycle_of_findCycle? {id : String} (hid : f.findCycle? roots = some id) :
    ∃ root ∈ roots, Reaches f.edges root id ∧ OnCycle f.edges id := by
  have hexact := @searchRoots_exact f.edges [] roots .nil
  rw [show searchRoots f.edges roots [] = some id from hid] at hexact
  exact hexact

/-- No cycle is found exactly if none can be reached from the roots. -/
theorem findCycle?_eq_none_iff :
    f.findCycle? roots = none ↔
      ∀ root ∈ roots, ∀ id, Reaches f.edges root id → ¬OnCycle f.edges id := by
  constructor
  · intro hnone root hroot id hreaches
    have hexact := @searchRoots_exact f.edges [] roots .nil
    rw [show searchRoots f.edges roots [] = none from hnone] at hexact
    obtain ⟨later, hsettled, -, hroots⟩ := hexact
    exact hsettled.not_onCycle (hsettled.mem_of_reaches (hroots hroot) hreaches)
  · intro hacyclic
    cases hfound : f.findCycle? roots with
    | none => rfl
    | some id =>
      obtain ⟨root, hroot, hreaches, hcycle⟩ := onCycle_of_findCycle? hfound
      exact absurd hcycle (hacyclic root hroot id hreaches)

theorem findCycle?_eq_none_of_subset {roots' : List String} (hsub : roots' ⊆ roots)
    (hnone : f.findCycle? roots = none) : f.findCycle? roots' = none := by
  rw [findCycle?_eq_none_iff] at hnone ⊢
  intro root hroot
  exact hnone root (hsub hroot)

end Automation.Flow
