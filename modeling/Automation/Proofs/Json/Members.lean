import Automation.Proofs.Json.Decoding
import Automation.Proofs.Json.Slots

/-!
# Members in any order

An object is written with its members in declaration order, and a value has them by key.  To a record
this makes no difference: a member fills the slot of its key and no other, so members under different
keys may change places (`Layout.Commutes`), and an object is decoded whatever the order of its members
(`Layout.takes_perm`).
-/

namespace Automation.Json

open Checks

theorem SpellsMembers.exists_perm {members members' : List (String × Value)}
    (hp : members.Perm members') {ms : List (Key × Tree)} (h : SpellsMembers ms members) :
    ∃ ms', ms.Perm ms' ∧ SpellsMembers ms' members' := by
  induction hp generalizing ms with
  | nil => exact ⟨ms, .refl _, h⟩
  | cons m _ ih =>
    cases h with
    | cons htext hhead htail =>
      obtain ⟨ms', hperm, hms'⟩ := ih htail
      exact ⟨_, hperm.cons _, .cons htext hhead hms'⟩
  | swap m m' members =>
    cases h with
    | cons htext hhead htail =>
      cases htail with
      | cons htext' hhead' htail => exact ⟨_, .swap .., .cons htext' hhead' (.cons htext hhead htail)⟩
  | trans _ _ ih ih' =>
    obtain ⟨ms', hperm, hms'⟩ := ih h
    obtain ⟨ms'', hperm', hms''⟩ := ih' hms'
    exact ⟨ms'', hperm.trans hperm', hms''⟩

theorem SpellsMembers.map_text {ms : List (Key × Tree)} {members : List (String × Value)}
    (h : SpellsMembers ms members) : ms.map (fun m => m.1.text) = (members.map Prod.fst).map .ok := by
  induction members generalizing ms with
  | nil =>
    cases h
    rfl
  | cons m members ih =>
    cases h with
    | cons htext _ htail => rw [List.map_cons, List.map_cons, List.map_cons, htext, ih htail]

namespace Layout

variable {α σ ρ : Type} {l : Layout σ ρ} {r : Reading} {m m' : Key × Tree} {ms ms' : List (Key × Tree)}

/-- Reads a member into the slot of its key, or passes over it. -/
def readMember (l : Layout σ ρ) (r : Reading) (m : Key × Tree) (s : σ) : Except Misfit σ := do
  match l.byKey r (← keyText m.1) m.1.after m.2 s with
  | some e => e
  | none => do
    skip m.2
    pure s

theorem readMembers_cons {s s' : σ} :
    l.readMembers r (m :: ms) s = .ok s' ↔
      ∃ s₁, l.readMember r m s = .ok s₁ ∧ l.readMembers r ms s₁ = .ok s' := by
  obtain ⟨key, t⟩ := m
  rw [readMembers, readMember]
  cases keyText key with
  | error e => simp [bind, Except.bind]
  | ok name =>
    simp only [bind, Except.bind]
    cases l.byKey r name key.after t s with
    | some e => exact bind_eq_ok_iff
    | none => cases skip t <;> simp [pure, Except.pure]

/-- Two members under different keys that are read one after the other may change places. -/
def Commutes (l : Layout σ ρ) : Prop :=
  ∀ (r : Reading) (m m' : Key × Tree) (s s₁ s₂ : σ), m.1.text ≠ m'.1.text →
    l.readMember r m s = .ok s₁ → l.readMember r m' s₁ = .ok s₂ →
    ∃ s₁', l.readMember r m' s = .ok s₁' ∧ l.readMember r m s₁' = .ok s₂

theorem commutes_nil : Commutes nil := by
  intro r m m' s s₁ s₂ _ h h'
  exact ⟨s₂, h', h⟩

/-- All that a member can do to a field in front of others: it is the first one under the key, which is
decoded, or it is under another key and goes to the others. -/
theorem readMember_field {key : String} {d : Decoder α} {default? : Option α} {s s' : Option α × σ} :
    (field key d default? l).readMember r m s = .ok s' ↔
      (m.1.text = .ok key ∧ s.1 = none ∧ ∃ x, d r m.2 = .ok x ∧ s' = (some x, s.2)) ∨
        (m.1.text ≠ .ok key ∧ s'.1 = s.1 ∧ l.readMember r m s.2 = .ok s'.2) := by
  obtain ⟨slot, others⟩ := s
  obtain ⟨slot', others'⟩ := s'
  obtain ⟨⟨text, after⟩, t⟩ := m
  cases text with
  | error e => exact ⟨nofun, by rintro (⟨h, -⟩ | ⟨-, -, h⟩) <;> cases h⟩
  | ok name =>
    rw [readMember, readMember, Decoder.keyText_eq rfl]
    simp only [field, bind, Except.bind]
    by_cases hname : name = key
    · subst hname
      cases slot with
      | some x => simp
      | none => cases d r t <;> simp [Except.map, eq_comm]
    · have hname' : key ≠ name := Ne.symm hname
      rw [if_neg hname]
      cases l.byKey r name after t others with
      | some e => cases e <;> simp [hname', Except.map, eq_comm]
      | none => cases skip t <;> simp [hname', pure, Except.pure, eq_comm]

theorem Commutes.field {key : String} {d : Decoder α} {default? : Option α} (h : l.Commutes) :
    (l.field key d default?).Commutes := by
  intro r m m' s s₁ s₂ hne hm hm'
  rcases readMember_field.1 hm with ⟨hkey, hopen, x, hx, rfl⟩ | ⟨hkey, hslot, hothers⟩
  · have hkey' : m'.1.text ≠ .ok key := fun hkey' => hne (hkey.trans hkey'.symm)
    rcases readMember_field.1 hm' with ⟨hkey'', -⟩ | ⟨-, hslot', hothers'⟩
    · exact absurd hkey'' hkey'
    · refine ⟨(s.1, s₂.2), readMember_field.2 (.inr ⟨hkey', rfl, hothers'⟩), ?_⟩
      exact readMember_field.2 (.inl ⟨hkey, hopen, x, hx, Prod.ext hslot' rfl⟩)
  · rcases readMember_field.1 hm' with ⟨hkey', hopen, x, hx, rfl⟩ | ⟨hkey', hslot', hothers'⟩
    · refine ⟨(some x, s.2), readMember_field.2 (.inl ⟨hkey', hslot ▸ hopen, x, hx, rfl⟩), ?_⟩
      exact readMember_field.2 (.inr ⟨hkey, rfl, hothers⟩)
    · obtain ⟨others, hfirst, hsecond⟩ := h r m m' _ _ _ hne hothers hothers'
      refine ⟨(s.1, others), readMember_field.2 (.inr ⟨hkey', rfl, hfirst⟩), ?_⟩
      exact readMember_field.2 (.inr ⟨hkey, hslot'.trans hslot, hsecond⟩)

theorem Commutes.readMembers_perm (h : l.Commutes) (hp : ms.Perm ms')
    (hkeys : (ms.map fun m => m.1.text).Nodup) {s s' : σ} (hs : l.readMembers r ms s = .ok s') :
    l.readMembers r ms' s = .ok s' := by
  induction hp generalizing s with
  | nil => exact hs
  | cons m _ ih =>
    obtain ⟨s₁, hm, hrest⟩ := readMembers_cons.1 hs
    exact readMembers_cons.2 ⟨s₁, hm, ih (List.nodup_cons.1 hkeys).2 hrest⟩
  | swap m m' ms =>
    obtain ⟨s₁, hm, hrest⟩ := readMembers_cons.1 hs
    obtain ⟨s₂, hm', hrest⟩ := readMembers_cons.1 hrest
    have hne : m'.1.text ≠ m.1.text := fun heq =>
      (List.nodup_cons.1 hkeys).1 (List.mem_cons.2 (.inl heq))
    obtain ⟨s₁', hfirst, hsecond⟩ := h r m' m _ _ _ hne hm hm'
    exact readMembers_cons.2 ⟨s₁', hfirst, readMembers_cons.2 ⟨s₂, hsecond, hrest⟩⟩
  | trans hp _ ih ih' => exact ih' ((hp.map _).nodup_iff.1 hkeys) (ih hkeys hs)

/-- A record is taken from an object whatever the order of its members, if no two are under one key. -/
theorem Commutes.takes_perm (h : l.Commutes) {name : String} {make : ρ → α} {x : α}
    {members members' : List (String × Value)} (hp : members.Perm members')
    (hkeys : (members.map Prod.fst).Nodup)
    (hx : (l.decoder name make).Takes r (.object members) x) :
    (l.decoder name make).Takes r (.object members') x := by
  intro t ht
  cases ht with
  | @object ms' _ span hms' =>
    obtain ⟨ms, hperm, hms⟩ := SpellsMembers.exists_perm hp.symm hms'
    have hnodup : (ms.map fun m => m.1.text).Nodup := by
      rw [hms.map_text]
      exact List.pairwise_map.2 (hkeys.imp fun hne heq => hne (Except.ok.inj heq))
    have htree := hx _ (.object span hms)
    simp only [decoder, bind_eq_ok_iff] at htree ⊢
    obtain ⟨r', hr', s, hs, hrest⟩ := htree
    exact ⟨r', hr', s, h.readMembers_perm hperm.symm hnodup hs, hrest⟩

theorem Commutes.takes_ofList (h : l.Commutes) {name : String} {make : ρ → α} {x : α}
    {members : List (String × Value)} (hkeys : (members.map Prod.fst).Nodup)
    (hx : (l.decoder name make).Takes r (.object members) x) :
    (l.decoder name make).Takes r (.object (Keyed.ofList members)) x :=
  h.takes_perm (@Keyed.perm_overlay _ [] _ hkeys).symm hkeys hx

end Layout

end Automation.Json

namespace Automation.Value

theorem nesting_ofList {members : List (String × Value)} (hkeys : (members.map Prod.fst).Nodup) :
    (object (Keyed.ofList members)).nesting = (object members).nesting := by
  have hperm : (Keyed.ofList members).Perm members := @Keyed.perm_overlay _ [] _ hkeys
  have hitems : ∀ {vs ws : List Value}, vs.Perm ws → nestingOfItems vs ≤ nestingOfItems ws :=
    fun hp => nestingOfItems_le_iff.2 fun v hv =>
      nestingOfItems_le_iff.1 (Nat.le_refl _) v (hp.mem_iff.1 hv)
  have hvalues := hperm.map Prod.snd
  rw [nesting, nesting, nestingOfMembers_eq, nestingOfMembers_eq,
    Nat.le_antisymm (hitems hvalues) (hitems hvalues.symm)]

end Automation.Value
