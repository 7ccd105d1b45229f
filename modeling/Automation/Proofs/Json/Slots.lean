import Automation.Json.Decoder
import Automation.Proofs.Checks

/-!
# What decoded values come from

A decoder that takes what was written is one half of a story; the other is that what was decoded has
been written somewhere.  A list is decoded from a list as long (`exists_array_of_list`).  A value of a
record is decoded from a member under its key, or stands for one that is absent
(`Layout.Slot.exists_of_ofValue`): each field has a slot (`Layout.Slot`) that members under its key
fill and that the others leave alone.
-/

namespace Automation.Json

open Checks

/-! ## Trees of values -/

theorem treesOfItems_eq (items : List Value) : treesOfItems items = items.map Tree.ofValue := by
  induction items with
  | nil => rfl
  | cons v r ih => rw [treesOfItems, ih, List.map_cons]

theorem treesOfMembers_eq (members : List (String × Value)) :
    treesOfMembers members = members.map fun (k, v) => (⟨.ok k, []⟩, Tree.ofValue v) := by
  induction members with
  | nil => rfl
  | cons m r ih => rw [treesOfMembers, ih, List.map_cons]

/-! ## Lists -/

namespace Decoder

theorem anyItems_eq_mapM (r : Reading) (items : List Tree) :
    anyItems r items = items.mapM (any r) := by
  induction items with
  | nil => rfl
  | cons t items ih => rw [List.mapM_cons, anyItems, ih]

theorem exists_array_of_list {α : Type} {d : Decoder α} {v : Value} {xs : List α}
    (h : (list d).ofValue v = .ok xs) :
    ∃ items, v = .array items ∧ items.length = xs.length := by
  have hd := mapError_eq_ok_iff.1 h
  cases v with
  | array items =>
    simp only [Tree.ofValue, treesOfItems_eq, list, bind_eq_ok_iff] at hd
    obtain ⟨_, _, ys, hys, _, _, hxs⟩ := hd
    obtain rfl : ys = xs := Except.ok.inj hxs
    exact ⟨items, rfl, by simpa using length_of_mapM_eq_ok hys⟩
  | _ => cases hd

theorem exists_array_of_any {r : Reading} {v : Value} {xs : List Value}
    (h : any r (.ofValue v) = .ok (.array xs)) :
    ∃ items, v = .array items ∧ items.length = xs.length := by
  cases v with
  | array items =>
    simp only [Tree.ofValue, treesOfItems_eq, any, bind_eq_ok_iff] at h
    obtain ⟨_, _, ys, hys, _, _, hxs⟩ := h
    obtain rfl : ys = xs := Value.array.inj (Except.ok.inj hxs)
    rw [anyItems_eq_mapM] at hys
    exact ⟨items, rfl, by simpa using length_of_mapM_eq_ok hys⟩
  | object members =>
    simp only [Tree.ofValue, any, bind_eq_ok_iff] at h
    obtain ⟨_, _, _, _, _, _, hxs⟩ := h
    cases hxs
  | _ => cases h

end Decoder

/-! ## Records -/

namespace Layout

variable {α β σ ρ : Type} {l : Layout σ ρ} {key : String} {d : Decoder α} {default? : Option α}
  {slot : σ → Option α} {value : ρ → α}

/-- The slot of a key: a member under the key is decoded into it, and no other member changes it.  In
the end it gives one of the values of the record, unless nothing is in it. -/
structure Slot (l : Layout σ ρ) (key : String) (d : Decoder α) (default? : Option α)
    (slot : σ → Option α) (value : ρ → α) : Prop where
  start : slot l.start = none
  here : ∀ {r after t s s'}, l.byKey r key after t s = some (.ok s') →
    ∃ x, d r t = .ok x ∧ slot s' = some x
  there : ∀ {r k after t s s'}, k ≠ key → l.byKey r k after t s = some (.ok s') →
    slot s' = slot s
  finish : ∀ {absent s values}, l.finish absent s = .ok values →
    slot s = some (value values) ∨ default? = some (value values)

theorem finish_field {absent : Nat → String → DecodeError} {x : Option α} {others : σ}
    {values : α × ρ} (h : (field key d default? l).finish absent (x, others) = .ok values) :
    ∃ y ys, (x = some y ∨ default? = some y) ∧
      l.finish (fun i => absent (i + 1)) others = .ok ys ∧ values = (y, ys) := by
  simp only [field] at h
  cases x with
  | some y =>
    obtain ⟨_, hy, ys, hys, hvalues⟩ := by simpa only [bind_eq_ok_iff] using h
    cases hy
    exact ⟨y, ys, .inl rfl, hys, (Except.ok.inj hvalues).symm⟩
  | none =>
    cases default? with
    | some y =>
      obtain ⟨_, hy, ys, hys, hvalues⟩ := by simpa only [bind_eq_ok_iff] using h
      cases hy
      exact ⟨y, ys, .inr rfl, hys, (Except.ok.inj hvalues).symm⟩
    | none => cases h

/-- All that a member can do to a field: it is the first one under the key, which is decoded, or it is
under another key and goes to the fields behind. -/
theorem byKey_field {r : Reading} {k : String} {after : List Char} {t : Tree} {s s' : Option α × σ}
    (h : (field key d default? l).byKey r k after t s = some (.ok s')) :
    (k = key ∧ ∃ x, d r t = .ok x ∧ s' = (some x, s.2)) ∨
      (k ≠ key ∧ ∃ others, l.byKey r k after t s.2 = some (.ok others) ∧ s' = (s.1, others)) := by
  obtain ⟨x, others⟩ := s
  simp only [field] at h
  by_cases hk : k = key
  · rw [if_pos hk] at h
    have hd : (d r t).map (fun x => (some x, others)) = .ok s' := by
      cases x with
      | some x => cases h
      | none => exact Option.some.inj h
    obtain ⟨y, hy, hs'⟩ := map_eq_ok_iff.1 hd
    exact .inl ⟨hk, y, hy, hs'.symm⟩
  · rw [if_neg hk] at h
    obtain ⟨e, he, hmap⟩ := Option.map_eq_some_iff.1 h
    obtain ⟨others', hothers, hs'⟩ := map_eq_ok_iff.1 hmap
    exact .inr ⟨hk, others', he.trans (congrArg some hothers), hs'.symm⟩

theorem slot_here : (field key d default? l).Slot key d default? Prod.fst Prod.fst where
  start := rfl
  here h := by
    obtain ⟨-, x, hx, rfl⟩ | ⟨hne, -⟩ := byKey_field h
    · exact ⟨x, hx, rfl⟩
    · exact absurd rfl hne
  there hne h := by
    obtain ⟨heq, -⟩ | ⟨-, _, _, rfl⟩ := byKey_field h
    · exact absurd heq hne
    · rfl
  finish h := by
    obtain ⟨y, _, hy, _, hvalues⟩ := finish_field h
    rw [hvalues]
    exact hy

theorem slot_there {k : String} {d' : Decoder β} {other? : Option β} (hne : key ≠ k)
    (h : l.Slot key d default? slot value) :
    (field k d' other? l).Slot key d default? (fun s => slot s.2) fun values => value values.2 where
  start := h.start
  here hs := by
    obtain ⟨heq, -⟩ | ⟨-, others, hothers, rfl⟩ := byKey_field hs
    · exact absurd heq hne
    · exact h.here hothers
  there hne' hs := by
    obtain ⟨-, x, -, rfl⟩ | ⟨-, others, hothers, rfl⟩ := byKey_field hs
    · rfl
    · exact h.there hne' hothers
  finish hs := by
    obtain ⟨y, ys, _, hys, hvalues⟩ := finish_field hs
    rw [hvalues]
    exact h.finish hys

theorem Slot.of_readMembers (h : l.Slot key d default? slot value) {r : Reading}
    {members : List (Key × Tree)} {s s' : σ} (hs : l.readMembers r members s = .ok s') {x : α}
    (hx : slot s' = some x) :
    slot s = some x ∨ ∃ m ∈ members, m.1.text = .ok key ∧ d r m.2 = .ok x := by
  induction members generalizing s with
  | nil =>
    obtain rfl : s = s' := Except.ok.inj hs
    exact .inl hx
  | cons m members ih =>
    obtain ⟨k, t⟩ := m
    rw [readMembers, bind_eq_ok_iff] at hs
    obtain ⟨name, hname, hs⟩ := hs
    have hkey : k.text = .ok name := mapError_eq_ok_iff.1 hname
    -- If this member leaves the slot as it is, the value comes from a later one or was there before.
    have hrest : ∀ {s₁}, l.readMembers r members s₁ = .ok s' → slot s₁ = slot s →
        slot s = some x ∨ ∃ m ∈ (k, t) :: members, m.1.text = .ok key ∧ d r m.2 = .ok x := by
      intro s₁ hs₁ hslot
      rcases ih hs₁ with hx' | ⟨m, hm, hm'⟩
      · exact .inl (hslot ▸ hx')
      · exact .inr ⟨m, List.mem_cons_of_mem _ hm, hm'⟩
    cases hbyKey : l.byKey r name k.after t s with
    | none =>
      simp only [hbyKey, bind_eq_ok_iff] at hs
      obtain ⟨_, _, hs⟩ := hs
      exact hrest hs rfl
    | some e =>
      simp only [hbyKey, bind_eq_ok_iff] at hs
      obtain ⟨s₁, he, hs⟩ := hs
      subst he
      by_cases hk : name = key
      · subst hk
        obtain ⟨y, hy, hslot⟩ := h.here hbyKey
        rcases ih hs with hx' | ⟨m, hm, hm'⟩
        · obtain rfl : y = x := Option.some.inj (hslot.symm.trans hx')
          exact .inr ⟨(k, t), List.mem_cons_self .., hkey, hy⟩
        · exact .inr ⟨m, List.mem_cons_of_mem _ hm, hm'⟩
      · exact hrest hs (h.there hk hbyKey)

/-- Each value of a record that is decoded from an object is decoded from a member under its key, or
stands for one that is absent. -/
theorem Slot.exists_of_ofValue (h : l.Slot key d default? slot value) {name : String} {make : ρ → β}
    {data : Record} {b : β} (hb : (l.decoder name make).ofValue (.object data) = .ok b) :
    ∃ values, make values = b ∧ (default? = some (value values) ∨
      ∃ v, (key, v) ∈ data ∧ d ⟨false, 1⟩ (.ofValue v) = .ok (value values)) := by
  have hd := mapError_eq_ok_iff.1 hb
  simp only [Tree.ofValue, treesOfMembers_eq, decoder, bind_eq_ok_iff, mapError_eq_ok_iff] at hd
  obtain ⟨r, hr, s, hs, _, _, values, hvalues, hmake⟩ := hd
  obtain rfl : _ = r := Except.ok.inj hr
  refine ⟨values, Except.ok.inj hmake, ?_⟩
  rcases h.finish hvalues with hx | hdefault
  · rcases h.of_readMembers hs hx with hstart | ⟨m, hm, hkey, hx⟩
    · rw [h.start] at hstart
      cases hstart
    · obtain ⟨⟨k, v⟩, hmem, rfl⟩ := List.mem_map.1 hm
      obtain rfl : k = key := Except.ok.inj hkey
      exact .inr ⟨v, hmem, hx⟩
  · exact .inl hdefault

end Layout

end Automation.Json
