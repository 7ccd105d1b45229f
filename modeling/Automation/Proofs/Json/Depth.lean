import Automation.Proofs.Json.Stable

/-!
# What was read does not nest too deep

A text may open only so many containers inside one another, and a value that has been read from one
nests no deeper than the text does.  So it can be written down where it was read and read again
(`Decoder.allows_of_any`, `Decoder.allows_of_record`).  A value that nests deeper can be written down, but
its text is not read: a decoder that looks at all of it finds no room (`Decoder.Measures`).
-/

namespace Automation.Json

open Checks

namespace Reading

variable {r : Reading} {count : Nat} {items : List Value} {members : List (String × Value)}

theorem allows_succ_iff : r.Allows (count + 1) ↔ r.inner.Allows count := by
  have hdepth : r.inner.depth + count = r.depth + (count + 1) := by
    show r.depth + 1 + count = _
    omega
  rw [Allows, Allows, hdepth]
  exact Iff.rfl

theorem Allows.mono {fewer : Nat} (h : r.Allows count) (hle : fewer ≤ count) : r.Allows fewer :=
  fun htext => Nat.lt_of_le_of_lt (Nat.add_le_add_left hle _) (h htext)

theorem allows_nestingOfItems_iff :
    r.Allows (Value.nestingOfItems items) ↔ r.Allows 0 ∧ ∀ v ∈ items, r.Allows v.nesting := by
  induction items with
  | nil => simp [Value.nestingOfItems]
  | cons v items ih =>
    rw [Value.nestingOfItems, List.forall_mem_cons]
    constructor
    · intro h
      obtain ⟨hroom, hitems⟩ := ih.1 (h.mono (Nat.le_max_right ..))
      exact ⟨hroom, h.mono (Nat.le_max_left ..), hitems⟩
    · rintro ⟨hroom, hv, hitems⟩
      have hothers := ih.2 ⟨hroom, hitems⟩
      -- Only a text has a limit, and both stay below it.
      exact fun htext => by
        have hv := hv htext
        have hothers := hothers htext
        omega

theorem allows_array_iff :
    r.Allows (Value.array items).nesting ↔
      r.inner.Allows 0 ∧ ∀ v ∈ items, r.inner.Allows v.nesting := by
  rw [Value.nesting, allows_succ_iff, allows_nestingOfItems_iff]

theorem allows_object_iff :
    r.Allows (Value.object members).nesting ↔
      r.inner.Allows 0 ∧ ∀ m ∈ members, r.inner.Allows m.2.nesting := by
  rw [Value.nesting, Value.nestingOfMembers_eq, allows_succ_iff, allows_nestingOfItems_iff,
    List.forall_mem_map]

theorem allows_ofList {ms : List (String × Value)} (hroom : r.inner.Allows 0)
    (h : ∀ m ∈ ms, r.inner.Allows m.2.nesting) :
    r.Allows (Value.object (Keyed.ofList ms)).nesting :=
  allows_object_iff.2 ⟨hroom, fun m hm => h m (Keyed.mem_of_mem_ofList hm)⟩

end Reading

namespace Decoder

mutual

theorem allows_of_any {r : Reading} {t : Tree} {v : Value} (hr : r.Allows 0)
    (h : any r t = .ok v) : r.Allows v.nesting := by
  match t with
  | .null _ =>
    cases h
    exact hr
  | .bool _ _ =>
    cases h
    exact hr
  | .number none _ => cases h
  | .number (some _) _ =>
    cases h
    exact hr
  | .string (.ok _) _ =>
    cases h
    exact hr
  | .string (.error _) _ => cases h
  | .fault _ _ => cases h
  | .list items _ _ =>
    simp only [any, bind_eq_ok_iff] at h
    obtain ⟨_, henter, vs, hvs, _, _, hv⟩ := h
    cases hv
    obtain ⟨rfl, hroom⟩ := Reading.inner_of_enter henter
    exact Reading.allows_array_iff.2 ⟨hroom, allows_of_anyItems hroom hvs⟩
  | .object ms _ _ =>
    simp only [any, bind_eq_ok_iff] at h
    obtain ⟨_, henter, members, hmembers, _, _, hv⟩ := h
    cases hv
    obtain ⟨rfl, hroom⟩ := Reading.inner_of_enter henter
    exact Reading.allows_ofList hroom (allows_of_anyMembers hroom hmembers)

theorem allows_of_anyItems {r : Reading} {ts : List Tree} {vs : List Value} (hr : r.Allows 0)
    (h : anyItems r ts = .ok vs) : ∀ v ∈ vs, r.Allows v.nesting := by
  match ts with
  | [] =>
    cases h
    exact nofun
  | t :: ts =>
    simp only [anyItems, bind_eq_ok_iff] at h
    obtain ⟨v, hv, vs', hvs, heq⟩ := h
    cases heq
    exact List.forall_mem_cons.2 ⟨allows_of_any hr hv, allows_of_anyItems hr hvs⟩

theorem allows_of_anyMembers {r : Reading} {ts : List (Key × Tree)} {ms : List (String × Value)}
    (hr : r.Allows 0) (h : anyMembers r ts = .ok ms) : ∀ m ∈ ms, r.Allows m.2.nesting := by
  match ts with
  | [] =>
    cases h
    exact nofun
  | (key, t) :: ts =>
    simp only [anyMembers, bind_eq_ok_iff] at h
    obtain ⟨_, _, v, hv, ms', hms, heq⟩ := h
    cases heq
    exact List.forall_mem_cons.2 ⟨allows_of_any hr hv, allows_of_anyMembers hr hms⟩

end

theorem allows_of_record {r : Reading} {t : Tree} {rec : Record} (h : record r t = .ok rec) :
    r.Allows (Value.object rec).nesting := by
  obtain ⟨ms, hms, rfl⟩ := map_eq_ok_iff.1 h
  obtain ⟨hroom, hmembers⟩ := forall_mem_of_members (fun hr => allows_of_any hr) hms
  exact Reading.allows_ofList hroom hmembers

/-- What is decoded from a text is decoded from a tree of which containers are counted. -/
theorem exists_of_ofText {α : Type} {d : Decoder α} {s : List Char} {x : α}
    (h : d.ofText s = .ok x) : ∃ t, d ⟨true, 0⟩ t = .ok x := by
  have hdocument := mapError_eq_ok_iff.1 h
  rw [ofDocument, bind_eq_ok_iff] at hdocument
  obtain ⟨y, hy, hend⟩ := hdocument
  split at hend
  · cases hend
  · cases hend
    exact ⟨_, hy⟩

end Decoder

/-! ## What nests too deep is not read -/

namespace Decoder

variable {α : Type} {d : Decoder α} {r : Reading}

theorem anyMembers_eq_mapM (r : Reading) (ms : List (Key × Tree)) :
    anyMembers r ms = (ms.mapM fun (key, t) => do
      let key ← keyText key
      pure (key, ← any r t)) := by
  induction ms with
  | nil => rfl
  | cons m ms ih =>
    obtain ⟨key, t⟩ := m
    simp only [List.mapM_cons, anyMembers, ih, bind_assoc, pure_bind]

/-- Nothing is read from what spells the value where there is no room for all of its containers. -/
def Measures (d : Decoder α) (v : Value) : Prop :=
  ∀ ⦃r : Reading⦄ ⦃t : Tree⦄ ⦃x : α⦄, r.Allows 0 → Spells t v → d r t = .ok x → r.Allows v.nesting

theorem allows_of_spellsItems {vs : List Value} (hd : ∀ v ∈ vs, d.Measures v) (hr : r.Allows 0)
    {ts : List Tree} {xs : List α} (hts : SpellsItems ts vs) (h : ts.mapM (d r) = .ok xs) :
    ∀ v ∈ vs, r.Allows v.nesting := by
  induction vs generalizing ts xs with
  | nil => exact nofun
  | cons v vs ih =>
    obtain ⟨hv, hvs⟩ := List.forall_mem_cons.1 hd
    cases hts with
    | cons hhead htail =>
      simp only [List.mapM_cons, bind_eq_ok_iff] at h
      obtain ⟨x, hx, xs', hxs, -⟩ := h
      exact List.forall_mem_cons.2 ⟨hv hr hhead hx, ih hvs htail hxs⟩

theorem allows_of_spellsMembers {members : List (String × Value)} (hd : ∀ m ∈ members, d.Measures m.2)
    (hr : r.Allows 0) {ms : List (Key × Tree)} {xs : List (String × α)} (hms : SpellsMembers ms members)
    (h : (ms.mapM fun (key, t) => do
      let key ← keyText key
      pure (key, ← d r t)) = .ok xs) : ∀ m ∈ members, r.Allows m.2.nesting := by
  induction members generalizing ms xs with
  | nil => exact nofun
  | cons m members ih =>
    obtain ⟨hm, hmembers⟩ := List.forall_mem_cons.1 hd
    cases hms with
    | cons _ hhead htail =>
      simp only [List.mapM_cons, bind_eq_ok_iff] at h
      obtain ⟨_, ⟨_, -, x, hx, -⟩, xs', hxs, -⟩ := h
      exact List.forall_mem_cons.2 ⟨hm hr hhead hx, ih hmembers htail hxs⟩

theorem measures_flat {v : Value} (hv : v.nesting = 0) : d.Measures v :=
  fun _ _ _ hr _ _ => by rwa [hv]

theorem measures_list {vs : List Value} (hd : ∀ v ∈ vs, d.Measures v) : (list d).Measures (.array vs) := by
  intro r t xs _ ht h
  cases ht with
  | list span hts =>
    simp only [list, bind_eq_ok_iff] at h
    obtain ⟨_, henter, ys, hys, -⟩ := h
    obtain ⟨rfl, hroom⟩ := Reading.inner_of_enter henter
    exact Reading.allows_array_iff.2 ⟨hroom, allows_of_spellsItems hd hroom hts hys⟩

theorem measures_members {ms : List (String × Value)} (hd : ∀ m ∈ ms, d.Measures m.2) :
    (members d).Measures (.object ms) := by
  intro r t xs _ ht h
  cases ht with
  | object span hts =>
    simp only [members, bind_eq_ok_iff] at h
    obtain ⟨_, henter, ys, hys, -⟩ := h
    obtain ⟨rfl, hroom⟩ := Reading.inner_of_enter henter
    exact Reading.allows_object_iff.2 ⟨hroom, allows_of_spellsMembers hd hroom hts hys⟩

theorem any_list {items : List Tree} {ending : Ending} {span : Span} :
    any r (.list items ending span) = .array <$> list any r (.list items ending span) := by
  simp only [any, list, anyItems_eq_mapM, map_bind, map_pure]

theorem any_object {ms : List (Key × Tree)} {ending : Ending} {span : Span} :
    any r (.object ms ending span) =
      (fun ms => .object (Keyed.ofList ms)) <$> members any r (.object ms ending span) := by
  simp only [any, members, anyMembers_eq_mapM, map_bind, map_pure]

theorem measures_any_array {items : List Value} (hitems : ∀ v ∈ items, Measures any v) :
    Measures any (.array items) := by
  intro r t x hr ht h
  cases ht with
  | list span hts =>
    rw [any_list] at h
    obtain ⟨xs, hxs, -⟩ := map_eq_ok_iff.1 h
    exact measures_list hitems hr (.list span hts) hxs

theorem measures_any_object {ms : List (String × Value)} (hms : ∀ m ∈ ms, Measures any m.2) :
    Measures any (.object ms) := by
  intro r t x hr ht h
  cases ht with
  | object span hts =>
    rw [any_object] at h
    obtain ⟨xs, hxs, -⟩ := map_eq_ok_iff.1 h
    exact measures_members hms hr (.object span hts) hxs

theorem measures_any (v : Value) : Measures any v := by
  cases v with
  | array items => exact measures_any_array fun v _ => measures_any v
  | object members => exact measures_any_object fun m _ => measures_any m.2
  | _ => exact measures_flat rfl
termination_by sizeOf v
decreasing_by
  · have := List.sizeOf_lt_of_mem ‹v ∈ items›
    simp
    omega
  · have := sizeOf_lt_of_mem_members ‹m ∈ members›
    simp
    omega

theorem measures_record (ms : List (String × Value)) : Measures record (.object ms) := by
  intro r t rec hr ht h
  obtain ⟨xs, hxs, -⟩ := map_eq_ok_iff.1 h
  exact measures_members (fun m _ => measures_any m.2) hr ht hxs

/-- A text is read only if the value that it is the text of does not nest too deep. -/
theorem Measures.nesting_lt {v : Value} {x : α} (hd : d.Measures v)
    (h : d.ofText (print v) = .ok x) : v.nesting < depthLimit := by
  obtain ⟨t, ht, hdocument⟩ := Document.ofText_print v
  rw [ofText, hdocument] at h
  have hresult := mapError_eq_ok_iff.1 h
  rw [ofDocument, bind_eq_ok_iff] at hresult
  obtain ⟨y, hy, -⟩ := hresult
  have hroom : (⟨true, 0⟩ : Reading).Allows 0 := fun _ => by decide
  have hless := hd hroom ht hy rfl
  rwa [Nat.zero_add] at hless

end Decoder

namespace Layout

variable {α σ ρ : Type} {l : Layout σ ρ}

def Measures (l : Layout σ ρ) (k : String) (v : Value) : Prop :=
  ∀ ⦃r : Reading⦄ ⦃m : Key × Tree⦄ ⦃s s' : σ⦄, r.Allows 0 → m.1.text = .ok k → Spells m.2 v →
    l.readMember r m s = .ok s' → r.Allows v.nesting

theorem measures_flat {k : String} {v : Value} (hv : v.nesting = 0) : l.Measures k v :=
  fun _ _ _ _ hr _ _ _ => by rwa [hv]

theorem measures_here {key : String} {d : Decoder α} {default? : Option α} {v : Value}
    (hd : d.Measures v) : (field key d default? l).Measures key v := by
  intro r m s s' hr hkey ht h
  rcases readMember_field.1 h with ⟨-, -, x, hx, -⟩ | ⟨hne, -⟩
  · exact hd hr ht hx
  · exact absurd hkey hne

theorem measures_there {key k : String} {d : Decoder α} {default? : Option α} {v : Value}
    (hne : k ≠ key) (h : l.Measures k v) : (field key d default? l).Measures k v := by
  intro r m s s' hr hkey ht hs
  rcases readMember_field.1 hs with ⟨hkey', -⟩ | ⟨-, -, hothers⟩
  · exact absurd (Except.ok.inj (hkey.symm.trans hkey')) hne
  · exact h hr hkey ht hothers

theorem allows_of_readMembers {members : List (String × Value)}
    (hl : ∀ m ∈ members, l.Measures m.1 m.2) {r : Reading} (hr : r.Allows 0) {ms : List (Key × Tree)}
    (hms : SpellsMembers ms members) {s s' : σ} (h : l.readMembers r ms s = .ok s') :
    ∀ m ∈ members, r.Allows m.2.nesting := by
  induction members generalizing ms s with
  | nil => exact nofun
  | cons m members ih =>
    obtain ⟨hm, hmembers⟩ := List.forall_mem_cons.1 hl
    cases hms with
    | cons htext hhead htail =>
      obtain ⟨s₁, hread, hrest⟩ := readMembers_cons.1 h
      exact List.forall_mem_cons.2 ⟨hm hr htext hhead hread, ih hmembers htail hrest⟩

theorem measures_object {name : String} {make : ρ → α} {members : List (String × Value)}
    (hl : ∀ m ∈ members, l.Measures m.1 m.2) : (l.decoder name make).Measures (.object members) := by
  intro r t x _ ht h
  cases ht with
  | object span hms =>
    simp only [decoder, bind_eq_ok_iff] at h
    obtain ⟨_, henter, s, hs, -⟩ := h
    obtain ⟨rfl, hroom⟩ := Reading.inner_of_enter henter
    exact Reading.allows_object_iff.2 ⟨hroom, allows_of_readMembers hl hroom hms hs⟩

end Layout

end Automation.Json
