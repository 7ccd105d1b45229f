import Automation.Proofs.Checks
import Automation.Proofs.Flow.Wire
import Automation.Proofs.Json.Slots
import Automation.Proofs.Number.Rounding

/-!
# What was decoded is decoded again

A decoder accepts more than is ever written: names with aliases, numbers of either kind, null for what
may be left off, members in any order.  What it makes of them is written in one way only, and a decoder
is stable (`Decoder.Stable`) if it takes that back as what it was, so that nothing it accepts is refused
or changed when it is decoded a second time.

There is a lemma for each way of putting decoders together.  A record is stable if the decoders of its
fields are and take back what stands for an absent value: `Layout.Yields` is what can be said of the
values of a record because it holds of each field, and `Layout.Reads.at` reads a member wherever it is
written, since members are written in the order of their keys and not of the fields.
-/

namespace Automation.Json

open Checks

theorem ordered_ofList {members : List (String × Value)} (h : ∀ m ∈ members, m.2.Ordered) :
    (Value.object (Keyed.ofList members)).Ordered :=
  .object (Keyed.sortedKeys_nil.overlay members) fun m hm => h m (Keyed.mem_of_mem_ofList hm)

theorem Reading.inner_of_enter {r r' : Reading} {span : Span} (h : r.enter span = .ok r') :
    r' = r.inner ∧ r.inner.Allows 0 := by
  rw [enter] at h
  split at h
  case isTrue => cases h
  case isFalse hfull =>
    refine ⟨(Except.ok.inj h).symm, fun htext => ?_⟩
    have hroom : ¬depthLimit ≤ r.depth + 1 := fun hlimit => hfull ⟨htext, hlimit⟩
    show r.depth + 1 + 0 < depthLimit
    omega

namespace Decoder

variable {α β : Type} {d : Decoder α} {encode : α → Value} {r : Reading}

/-- What is written for `x` is taken as `x`, whatever is written around it. -/
def Restores (d : Decoder α) (encode : α → Value) (x : α) : Prop :=
  ∀ r : Reading, r.fromText = false → d.Takes r (encode x) x

/-- Everything that a decoder gives is taken back. -/
def Stable (d : Decoder α) (encode : α → Value) : Prop :=
  ∀ {r t x}, d r t = .ok x → d.Restores encode x

theorem Restores.ofValue_eq {x : α} (h : d.Restores encode x) : d.ofValue (encode x) = .ok x := by
  rw [ofValue, h ⟨false, 0⟩ rfl _ (spells_ofValue _)]
  rfl

/-! ## Scalars -/

theorem mismatch_ne_ok {expected : String} {t : Tree} {x : α} : mismatch expected t ≠ .ok x := by
  unfold mismatch
  split <;> exact nofun

theorem restores_text (s : String) : text.Restores .string s := fun _ _ => takes_text s

theorem stable_text : text.Stable .string := fun _ => restores_text _

theorem restores_bool (b : Bool) : bool.Restores .bool b := fun _ _ => takes_bool b

theorem stable_bool : bool.Stable .bool := fun _ => restores_bool _

theorem isFinite_of_double {t : Tree} {x : Double} (h : double r t = .ok x) : x.isFinite = true := by
  rcases t with _ | _ | ⟨_ | n⟩ | ⟨_ | _⟩ | _ | _ | _ <;> cases h
  exact n.isFinite_toDouble

theorem stable_double : double.Stable .ofDouble := fun h _ _ => takes_ofDouble (isFinite_of_double h)

theorem ofDouble_ne_null {t : Tree} {x : Double} (h : double r t = .ok x) :
    Value.ofDouble x ≠ .null := by
  cases x with
  | finite negative size => exact nofun
  | infinite => cases isFinite_of_double h
  | nan => cases isFinite_of_double h

theorem lt_of_natBelow {bound n : Nat} {expected : String} {t : Tree}
    (h : natBelow bound expected r t = .ok n) : n < bound := by
  unfold natBelow at h
  split at h
  · split at h
    · next hrange =>
      cases h
      omega
    · cases h
  · exact absurd h mismatch_ne_ok

theorem stable_u64 : u64.Stable .ofNat :=
  fun h _ _ => takes_natBelow (lt_of_natBelow h) (Nat.le_refl _)

theorem ofNat_ne_null {t : Tree} {n : Nat} (h : u64 r t = .ok n) : Value.ofNat n ≠ .null := by
  have hlt : n < 18446744073709551616 := lt_of_natBelow h
  rw [Value.ofNat, Number.ofInt?, dif_pos (by omega)]
  intro heq
  cases heq

/-- It is enough that each name is read as what it stands for: the aliases are never written. -/
theorem restores_variant {names : List (String × α)} {other : Option α} {name : α → String}
    (h : ∀ x, names.lookup (name x) = some x) (x : α) :
    (variant names other).Restores (fun x => .string (name x)) x := fun _ _ => takes_variant (h x)

/-! ## Any values -/

mutual

theorem ordered_of_any {r : Reading} {t : Tree} {v : Value} (h : any r t = .ok v) : v.Ordered := by
  match t with
  | .null _ =>
    cases h
    exact .null
  | .bool b _ =>
    cases h
    exact .bool b
  | .number none _ => cases h
  | .number (some n) _ =>
    cases h
    exact .number n
  | .string (.ok s) _ =>
    cases h
    exact .string s
  | .string (.error _) _ => cases h
  | .fault _ _ => cases h
  | .list items _ _ =>
    simp only [any, bind_eq_ok_iff] at h
    obtain ⟨_, _, vs, hvs, _, _, hv⟩ := h
    cases hv
    exact .array (ordered_of_anyItems hvs)
  | .object ms _ _ =>
    simp only [any, bind_eq_ok_iff] at h
    obtain ⟨_, _, members, hmembers, _, _, hv⟩ := h
    cases hv
    exact ordered_ofList (ordered_of_anyMembers hmembers)

theorem ordered_of_anyItems {r : Reading} {ts : List Tree} {vs : List Value}
    (h : anyItems r ts = .ok vs) : ∀ v ∈ vs, v.Ordered := by
  match ts with
  | [] =>
    cases h
    exact nofun
  | t :: ts =>
    simp only [anyItems, bind_eq_ok_iff] at h
    obtain ⟨v, hv, vs', hvs, heq⟩ := h
    cases heq
    exact List.forall_mem_cons.2 ⟨ordered_of_any hv, ordered_of_anyItems hvs⟩

theorem ordered_of_anyMembers {r : Reading} {ts : List (Key × Tree)} {ms : List (String × Value)}
    (h : anyMembers r ts = .ok ms) : ∀ m ∈ ms, m.2.Ordered := by
  match ts with
  | [] =>
    cases h
    exact nofun
  | (key, t) :: ts =>
    simp only [anyMembers, bind_eq_ok_iff] at h
    obtain ⟨_, _, v, hv, ms', hms, heq⟩ := h
    cases heq
    exact List.forall_mem_cons.2 ⟨ordered_of_any hv, ordered_of_anyMembers hms⟩

end

theorem restores_any {v : Value} (hv : v.Ordered) : Restores any id v :=
  fun _ hr => takes_any hv (Reading.allows_of_value hr _)

theorem ordered_of_restores {v : Value} (h : Restores any id v) : v.Ordered :=
  ordered_of_any (h ⟨false, 0⟩ rfl _ (spells_ofValue v))

theorem stable_any : Stable any id := fun h => restores_any (ordered_of_any h)

theorem ne_null_of_any {t : Tree} {v : Value} (h : any r t = .ok v) (ht : ∀ span, t ≠ .null span) :
    v ≠ .null := by
  rintro rfl
  cases t with
  | null span => exact ht span rfl
  | number n span => cases n <;> cases h
  | string s span => cases s <;> cases h
  | list items ending span =>
    simp only [any, bind_eq_ok_iff] at h
    obtain ⟨_, _, _, _, _, _, hv⟩ := h
    cases hv
  | object ms ending span =>
    simp only [any, bind_eq_ok_iff] at h
    obtain ⟨_, _, _, _, _, _, hv⟩ := h
    cases hv
  | _ => cases h

theorem restores_record {rec : Record} (h : (Value.object rec).Ordered) :
    record.Restores .object rec :=
  fun _ hr => takes_record h (Reading.allows_of_value hr _)

theorem ordered_emptyRecord : (Value.object []).Ordered :=
  .object Keyed.sortedKeys_nil fun _ hm => absurd hm List.not_mem_nil

theorem restores_emptyRecord : record.Restores .object [] := restores_record ordered_emptyRecord

theorem forall_mem_of_members {P : α → Prop}
    (h : r.inner.Allows 0 → ∀ {t x}, d r.inner t = .ok x → P x) {t : Tree} {ms : List (String × α)}
    (hms : members d r t = .ok ms) : r.inner.Allows 0 ∧ ∀ m ∈ ms, P m.2 := by
  unfold Decoder.members at hms
  split at hms
  · simp only [bind_eq_ok_iff] at hms
    obtain ⟨_, henter, ms', hms', _, _, heq⟩ := hms
    cases heq
    obtain ⟨rfl, hroom⟩ := Reading.inner_of_enter henter
    refine ⟨hroom, fun m hm => ?_⟩
    obtain ⟨⟨key, t⟩, -, hmember⟩ := exists_of_mem_mapM hms' hm
    obtain ⟨_, _, x, hx, heq⟩ := by simpa only [bind_eq_ok_iff] using hmember
    cases heq
    exact h hroom hx
  · exact absurd hms mismatch_ne_ok

theorem ordered_of_record {t : Tree} {rec : Record} (h : record r t = .ok rec) :
    (Value.object rec).Ordered := by
  obtain ⟨ms, hms, rfl⟩ := map_eq_ok_iff.1 h
  exact ordered_ofList (forall_mem_of_members (fun _ => ordered_of_any) hms).2

theorem stable_record : record.Stable .object := fun h => restores_record (ordered_of_record h)

/-! ## Lists and optional values -/

theorem restores_none : (option d).Restores (.ofOption encode) none := by
  intro r _ t ht
  cases ht
  rfl

theorem Stable.option (h : d.Stable encode)
    (hnull : ∀ {r t x}, d r t = .ok x → (∀ span, t ≠ .null span) → encode x ≠ .null) :
    (option d).Stable (.ofOption encode) := by
  intro r t o ho
  unfold Decoder.option at ho
  split at ho
  · cases ho
    exact restores_none
  · next ht =>
    obtain ⟨x, hx, rfl⟩ := map_eq_ok_iff.1 ho
    exact fun r hr => takes_some (h hx r hr) (hnull hx ht)

/-- A text that may be null is never null because of what it says. -/
theorem stable_optionalText : (Decoder.option text).Stable (.ofOption .string) :=
  stable_text.option fun _ _ => nofun

theorem restores_list {xs : List α} (h : ∀ x ∈ xs, d.Restores encode x) :
    (list d).Restores (fun xs => .array (xs.map encode)) xs :=
  fun r hr => takes_list (Reading.allows_of_value hr _) fun x hx => h x hx r.inner hr

theorem restores_emptyList : (list d).Restores (fun xs => .array (xs.map encode)) [] :=
  restores_list fun _ hx => absurd hx List.not_mem_nil

theorem forall_mem_of_list {P : α → Prop} (h : ∀ {t x}, d r.inner t = .ok x → P x) {t : Tree}
    {xs : List α} (hxs : list d r t = .ok xs) : ∀ x ∈ xs, P x := by
  unfold Decoder.list at hxs
  split at hxs
  · simp only [bind_eq_ok_iff] at hxs
    obtain ⟨_, henter, ys, hys, _, _, heq⟩ := hxs
    cases heq
    obtain ⟨rfl, -⟩ := Reading.inner_of_enter henter
    intro x hx
    obtain ⟨t, -, ht⟩ := exists_of_mem_mapM hys hx
    exact h ht
  · exact absurd hxs mismatch_ne_ok

theorem Stable.list (h : d.Stable encode) :
    (list d).Stable fun xs => .array (xs.map encode) :=
  fun hxs => restores_list (forall_mem_of_list h hxs)

end Decoder

/-! ## Records with fields -/

namespace Layout

open Decoder (Takes Restores Stable)

variable {α β σ ρ : Type} {l : Layout σ ρ} {key : String} {d : Decoder α} {encode : α → Value}
  {default? : Option α} {r : Reading}

/-- Whatever the fields of a record are read from, its values are as `P` says, because `I` holds of the
slots from the start on. -/
structure Yields (l : Layout σ ρ) (r : Reading) (I : σ → Prop) (P : ρ → Prop) : Prop where
  start : I l.start
  byKey : ∀ {k after t s s'}, l.byKey r k after t s = some (.ok s') → I s → I s'
  byPosition : ∀ {i t s s'}, l.byPosition r i t s = some (.ok s') → I s → I s'
  finish : ∀ {absent s values}, l.finish absent s = .ok values → I s → P values

theorem yields_nil : nil.Yields r (fun _ => True) fun _ => True where
  start := trivial
  byKey _ h := h
  byPosition _ h := h
  finish _ h := h

/-- All that an item of a list can do to a field: it is decoded, or it goes to the fields behind. -/
theorem byPosition_field {i : Nat} {t : Tree} {s s' : Option α × σ}
    (h : (field key d default? l).byPosition r i t s = some (.ok s')) :
    (∃ x, d r t = .ok x ∧ s' = (some x, s.2)) ∨
      ∃ others j, l.byPosition r j t s.2 = some (.ok others) ∧ s' = (s.1, others) := by
  cases i with
  | zero =>
    obtain ⟨x, hx, hs'⟩ := map_eq_ok_iff.1 (Option.some.inj h)
    exact .inl ⟨x, hx, hs'.symm⟩
  | succ i =>
    obtain ⟨e, he, hmap⟩ := Option.map_eq_some_iff.1 h
    obtain ⟨others, hothers, hs'⟩ := map_eq_ok_iff.1 hmap
    exact .inr ⟨others, i, he.trans (congrArg some hothers), hs'.symm⟩

section Yields

variable {I : σ → Prop} {P : ρ → Prop} {Q : α → Prop}

/-- What holds of everything that is decoded into a field and of what stands for an absent value holds
of the value of the field. -/
theorem Yields.field (hd : ∀ {t x}, d r t = .ok x → Q x) (hdefault : ∀ x ∈ default?, Q x)
    (h : l.Yields r I P) :
    (field key d default? l).Yields r (fun s => (∀ x ∈ s.1, Q x) ∧ I s.2) fun v => Q v.1 ∧ P v.2 where
  start := ⟨nofun, h.start⟩
  byKey hs hI := by
    obtain ⟨-, x, hx, rfl⟩ | ⟨-, others, hothers, rfl⟩ := byKey_field hs
    · exact ⟨fun y hy => Option.some.inj hy ▸ hd hx, hI.2⟩
    · exact ⟨hI.1, h.byKey hothers hI.2⟩
  byPosition hs hI := by
    obtain ⟨x, hx, rfl⟩ | ⟨others, j, hothers, rfl⟩ := byPosition_field hs
    · exact ⟨fun y hy => Option.some.inj hy ▸ hd hx, hI.2⟩
    · exact ⟨hI.1, h.byPosition hothers hI.2⟩
  finish hv hI := by
    obtain ⟨y, ys, hy | hy, hys, rfl⟩ := finish_field hv
    · exact ⟨hI.1 y hy, h.finish hys hI.2⟩
    · exact ⟨hdefault y hy, h.finish hys hI.2⟩

theorem Yields.behind (h : l.Yields r I P) :
    (Layout.field key d default? l).Yields r (fun s => I s.2) fun v => P v.2 where
  start := h.start
  byKey hs hI := by
    obtain ⟨-, x, -, rfl⟩ | ⟨-, others, hothers, rfl⟩ := byKey_field hs
    · exact hI
    · exact h.byKey hothers hI
  byPosition hs hI := by
    obtain ⟨x, -, rfl⟩ | ⟨others, j, hothers, rfl⟩ := byPosition_field hs
    · exact hI
    · exact h.byPosition hothers hI
  finish hv hI := by
    obtain ⟨y, ys, -, hys, rfl⟩ := finish_field hv
    exact h.finish hys hI

theorem Yields.required (hd : d.Stable encode) (h : l.Yields r I P) :
    (Layout.required key d l).Yields r (fun s => (∀ x ∈ s.1, d.Restores encode x) ∧ I s.2)
      fun v => d.Restores encode v.1 ∧ P v.2 :=
  .field hd nofun h

theorem Yields.optional {default : α} (hd : d.Stable encode) (hdefault : d.Restores encode default)
    (h : l.Yields r I P) :
    (Layout.optional key d default l).Yields r (fun s => (∀ x ∈ s.1, d.Restores encode x) ∧ I s.2)
      fun v => d.Restores encode v.1 ∧ P v.2 :=
  .field hd (fun _ hx => Option.some.inj hx ▸ hdefault) h

theorem Yields.readMembers (h : l.Yields r I P) {ms : List (Key × Tree)} {s s' : σ}
    (hs : l.readMembers r ms s = .ok s') (hI : I s) : I s' := by
  induction ms generalizing s with
  | nil =>
    obtain rfl : s = s' := Except.ok.inj hs
    exact hI
  | cons m ms ih =>
    obtain ⟨key, t⟩ := m
    rw [Layout.readMembers, bind_eq_ok_iff] at hs
    obtain ⟨name, -, hs⟩ := hs
    cases hbyKey : l.byKey r name key.after t s with
    | none =>
      simp only [hbyKey, bind_eq_ok_iff] at hs
      obtain ⟨_, _, hs⟩ := hs
      exact ih hs hI
    | some e =>
      simp only [hbyKey, bind_eq_ok_iff] at hs
      obtain ⟨s₁, rfl, hs⟩ := hs
      exact ih hs (h.byKey hbyKey hI)

theorem Yields.readItems (h : l.Yields r I P) {i : Nat} {ts left : List Tree} {s s' : σ}
    (hs : l.readItems r i ts s = .ok (s', left)) (hI : I s) : I s' := by
  induction ts generalizing i s with
  | nil =>
    cases hs
    exact hI
  | cons t ts ih =>
    rw [Layout.readItems] at hs
    cases hbyPosition : l.byPosition r i t s with
    | none =>
      simp only [hbyPosition] at hs
      cases hs
      exact hI
    | some e =>
      simp only [hbyPosition, bind_eq_ok_iff] at hs
      obtain ⟨s₁, rfl, hs⟩ := hs
      exact ih hs (h.byPosition hbyPosition hI)

theorem Yields.of_decoder (h : l.Yields r.inner I P) {name : String} {make : ρ → β} {t : Tree}
    {x : β} (hx : l.decoder name make r t = .ok x) : ∃ values, P values ∧ make values = x := by
  unfold decoder at hx
  split at hx
  · simp only [bind_eq_ok_iff, mapError_eq_ok_iff] at hx
    obtain ⟨_, henter, s, hs, _, _, values, hvalues, hmake⟩ := hx
    obtain ⟨rfl, -⟩ := Reading.inner_of_enter henter
    exact ⟨values, h.finish hvalues (h.readMembers hs h.start), Except.ok.inj hmake⟩
  · simp only [bind_eq_ok_iff] at hx
    obtain ⟨_, henter, ⟨s, left⟩, hs, hx⟩ := hx
    obtain ⟨rfl, -⟩ := Reading.inner_of_enter henter
    have hI := h.readItems hs h.start
    cases left with
    | nil =>
      split at hx
      · simp only [bind_eq_ok_iff, mapError_eq_ok_iff] at hx
        obtain ⟨_, _, values, hvalues, _, _, hmake⟩ := hx
        exact ⟨values, h.finish hvalues hI, Except.ok.inj hmake⟩
      · simp only [bind_eq_ok_iff, mapError_eq_ok_iff] at hx
        obtain ⟨values, hvalues, _, _, hmake⟩ := hx
        exact ⟨values, h.finish hvalues hI, Except.ok.inj hmake⟩
    | cons t left =>
      -- An item that is left over is refused, whatever has been read before.
      rw [if_neg fun hempty => by cases hempty.1] at hx
      obtain ⟨values, -, hx⟩ := bind_eq_ok_iff.1 hx
      dsimp only at hx
      split at hx <;> cases hx
  · exact absurd hx Decoder.mismatch_ne_ok

end Yields

section Members

variable {members : List (String × Value)} {v : Value} {x : α} {s s' : σ}

theorem readMembers_at {ms : List (Key × Tree)} (i : Nat) (hms : SpellsMembers ms members)
    (hi : members[i]? = some (key, v)) (hkeys : ∀ m ∈ members.eraseIdx i, m.1 ≠ key)
    (hd : d.Takes r v x) (h : l.readMembers r (ms.eraseIdx i) s = .ok s') :
    (field key d default? l).readMembers r ms (none, s) = .ok (some x, s') := by
  -- The members in front go past the field one by one, and they may change what the others hold.
  induction i generalizing ms members s with
  | zero =>
    cases hms with
    | nil => cases hi
    | cons htext hhead htail =>
      cases hi
      have hfills : (field key d default? l).Fills r key v (none, s) (some x, s) := fills_here hd
      rw [readMembers, Decoder.keyText_eq htext]
      simp only [bind, Except.bind, hfills _ _ hhead]
      exact readMembers_behind htail hkeys h
  | succ i ih =>
    cases hms with
    | nil => cases hi
    | cons htext hhead htail =>
      obtain ⟨hne, hothers⟩ := List.forall_mem_cons.1 hkeys
      obtain ⟨s₁, hrest, hpast⟩ := readMembers_past htext hne h
      rw [hpast]
      exact ih htail hi hothers hrest

/-- A field is read wherever it is written, and those behind it from what is written besides. -/
theorem Reads.at (i : Nat) (hi : members[i]? = some (key, v))
    (hkeys : ∀ m ∈ members.eraseIdx i, m.1 ≠ key) (hd : d.Takes r v x)
    (h : l.Reads r (members.eraseIdx i) s s') :
    (field key d default? l).Reads r members (none, s) (some x, s') :=
  fun _ hms => readMembers_at i hms hi hkeys hd (h _ (hms.eraseIdx i))

end Members

end Layout

end Automation.Json
