import Automation.Json.Decoder
import Automation.Proofs.Json.Reading
import Automation.Proofs.Keyed

/-!
# Decoders on what was written

A decoder takes a value as `x` if it gives `x` for every tree that spells the value, wherever its
parts stand (`Decoder.Takes`).  `Decoder.ofText_print` turns that into a statement about text.

Scalars, lists and records have a lemma each.  A record is taken member by member: `Layout.Reads` is
what the members of an object do to the slots, and each member fills the slot of its key.

Two things about a value matter besides.  A text may open only so many containers inside one another
(`Value.nesting`), and a record of any values is rebuilt by key, so its keys have to be in the order
in which a record keeps them (`Value.Ordered`).
-/

namespace Automation

namespace Value

/-- A value as records keep it: each object in it with its keys in strict order. -/
inductive Ordered : Value → Prop
  | null : Ordered .null
  | bool (b : Bool) : Ordered (.bool b)
  | number (n : Number) : Ordered (.number n)
  | string (s : String) : Ordered (.string s)
  | array {items : List Value} (h : ∀ v ∈ items, Ordered v) : Ordered (.array items)
  | object {r : List (String × Value)} (hkeys : Keyed.SortedKeys r) (h : ∀ m ∈ r, Ordered m.2) :
      Ordered (.object r)

mutual

/-- How many containers a value opens inside one another. -/
def nesting : Value → Nat
  | .array items => nestingOfItems items + 1
  | .object members => nestingOfMembers members + 1
  | _ => 0

def nestingOfItems : List Value → Nat
  | [] => 0
  | v :: r => max (nesting v) (nestingOfItems r)

def nestingOfMembers : List (String × Value) → Nat
  | [] => 0
  | (_, v) :: r => max (nesting v) (nestingOfMembers r)

end

section Nesting

variable {v : Value} {items : List Value} {m : String × Value} {r : List (String × Value)}

theorem nestingOfItems_le_iff {count : Nat} :
    nestingOfItems items ≤ count ↔ ∀ v ∈ items, v.nesting ≤ count := by
  induction items with
  | nil => simp [nestingOfItems]
  | cons v r ih => rw [nestingOfItems, Nat.max_le, ih, List.forall_mem_cons]

theorem nestingOfMembers_eq : nestingOfMembers r = nestingOfItems (r.map Prod.snd) := by
  induction r with
  | nil => rfl
  | cons m r ih => rw [nestingOfMembers, ih, List.map_cons, nestingOfItems]

theorem nesting_array_pos : 0 < (array items).nesting := by
  rw [nesting]
  exact Nat.succ_pos _

theorem nesting_object_pos : 0 < (object r).nesting := by
  rw [nesting]
  exact Nat.succ_pos _

theorem nesting_lt_array (h : v ∈ items) : v.nesting < (array items).nesting := by
  rw [nesting]
  exact Nat.lt_succ_of_le (nestingOfItems_le_iff.1 (Nat.le_refl _) v h)

theorem nesting_lt_object (h : m ∈ r) : m.2.nesting < (object r).nesting := by
  rw [nesting, nestingOfMembers_eq]
  exact Nat.lt_succ_of_le (nestingOfItems_le_iff.1 (Nat.le_refl _) m.2 (List.mem_map_of_mem h))

theorem nesting_array_congr {α : Type} {f g : α → Value} (h : ∀ x, (f x).nesting = (g x).nesting)
    (xs : List α) : (array (xs.map f)).nesting = (array (xs.map g)).nesting := by
  have hitems : nestingOfItems (xs.map f) = nestingOfItems (xs.map g) := by
    induction xs with
    | nil => rfl
    | cons x xs ih => rw [List.map_cons, List.map_cons, nestingOfItems, nestingOfItems, h, ih]
  rw [nesting, nesting, hitems]

theorem nesting_object_of_flat (h : ∀ m ∈ r, m.2.nesting = 0) : (object r).nesting = 1 := by
  have hflat : nestingOfItems (r.map Prod.snd) ≤ 0 := by
    rw [nestingOfItems_le_iff]
    intro v hv
    obtain ⟨m, hm, rfl⟩ := List.mem_map.1 hv
    exact Nat.le_of_eq (h m hm)
  rw [nesting, nestingOfMembers_eq, Nat.le_zero.1 hflat]

end Nesting

end Value

namespace Json

namespace Reading

/-- Whether so many containers may still be opened inside one another. -/
def Allows (r : Reading) (count : Nat) : Prop := r.fromText = true → r.depth + count < depthLimit

def inner (r : Reading) : Reading := { r with depth := r.depth + 1 }

theorem Allows.inner {r : Reading} {count outer : Nat} (h : r.Allows outer) (hlt : count < outer) :
    r.inner.Allows count := by
  intro htext
  have := h htext
  show r.depth + 1 + count < depthLimit
  omega

theorem enter_of_allows {r : Reading} {count : Nat} (h : r.Allows count) (hpos : 0 < count)
    (span : Span) : r.enter span = .ok r.inner := by
  rw [enter, if_neg]
  · rfl
  · rintro ⟨htext, hdepth⟩
    have := h htext
    omega

theorem allows_of_value {r : Reading} (hr : r.fromText = false) (count : Nat) :
    r.Allows count := fun htext => by
  rw [hr] at htext
  cases htext

end Reading

namespace Decoder

variable {α β : Type} {r : Reading}

/-- Whatever tree spells the value, the decoder gives the result for it. -/
def Takes (d : Decoder α) (r : Reading) (v : Value) (x : α) : Prop :=
  ∀ t, Spells t v → d r t = .ok x

theorem ofText_print {d : Decoder α} {v : Value} {x : α} (h : d.Takes ⟨true, 0⟩ v x) :
    d.ofText (print v) = .ok x := by
  obtain ⟨t, hspells, hdocument⟩ := Document.ofText_print v
  rw [ofText, hdocument, ofDocument, h t hspells]
  rfl

theorem keyText_eq {key : Key} {k : String} (h : key.text = .ok k) : keyText key = .ok k := by
  rw [keyText, h]
  rfl

theorem takes_text (s : String) : text.Takes r (.string s) s := by
  intro t h
  cases h
  rfl

theorem takes_double (negative : Bool) (size : Magnitude .double) :
    double.Takes r (.number (.double negative size)) (.finite negative size) := by
  intro t h
  cases h
  rfl

theorem takes_bool (b : Bool) : bool.Takes r (.bool b) b := by
  intro t h
  cases h
  rfl

theorem takes_natBelow {bound n : Nat} {expected : String} (hn : n < bound)
    (hbound : bound ≤ UInt64.size) : (natBelow bound expected).Takes r (.ofNat n) n := by
  have hrange : -9223372036854775808 ≤ (n : Int) ∧ (n : Int) < 18446744073709551616 := by
    have hsize : UInt64.size = 18446744073709551616 := rfl
    omega
  have hvalue : Value.ofNat n = .number (.integer n hrange) := by
    rw [Value.ofNat, Number.ofInt?, dif_pos hrange]
    rfl
  rw [hvalue]
  intro t h
  cases h
  rw [natBelow, if_pos ⟨Int.natCast_nonneg n, by exact_mod_cast hn⟩, Int.toNat_natCast]

theorem takes_some {d : Decoder α} {v : Value} {x : α} (h : d.Takes r v x) (hv : v ≠ .null) :
    (option d).Takes r v (some x) := by
  intro t ht
  have hd := h t ht
  cases ht with
  | null => exact absurd rfl hv
  | _ => exact congrArg (Except.map some) hd

theorem takes_variant {names : List (String × α)} {other : Option α} {name : String} {x : α}
    (h : names.lookup name = some x) : (variant names other).Takes r (.string name) x := by
  intro t ht
  cases ht with
  | string s span => simp [variant, h]

theorem mapM_of_takes {d : Decoder α} {encode : α → Value} {xs : List α} {items : List Tree}
    (h : ∀ x ∈ xs, d.Takes r (encode x) x) (hitems : SpellsItems items (xs.map encode)) :
    items.mapM (d r) = .ok xs := by
  induction xs generalizing items with
  | nil =>
    cases hitems
    rfl
  | cons x xs ih =>
    cases hitems with
    | cons hhead htail =>
      have hrest := ih (fun y hy => h y (List.mem_cons_of_mem x hy)) htail
      rw [List.mapM_cons, h x (List.mem_cons_self ..) _ hhead, hrest]
      rfl

theorem takes_list {d : Decoder α} {encode : α → Value} {xs : List α}
    (hdepth : r.Allows (Value.array (xs.map encode)).nesting)
    (h : ∀ x ∈ xs, d.Takes r.inner (encode x) x) :
    (list d).Takes r (.array (xs.map encode)) xs := by
  intro t ht
  cases ht with
  | @list items _ span hitems =>
    have hmap := mapM_of_takes h hitems
    simp only [list, Reading.enter_of_allows hdepth Value.nesting_array_pos, bind,
      Except.bind, hmap]
    rfl

theorem mapM_members_of_takes {d : Decoder α} {encode : α → Value} {xs : List (String × α)}
    {ms : List (Key × Tree)} (h : ∀ x ∈ xs, d.Takes r (encode x.2) x.2)
    (hms : SpellsMembers ms (xs.map fun x => (x.1, encode x.2))) :
    (ms.mapM fun (key, t) => do
      let key ← keyText key
      pure (key, ← d r t)) = .ok xs := by
  induction xs generalizing ms with
  | nil =>
    cases hms
    rfl
  | cons x xs ih =>
    cases hms with
    | cons htext hhead htail =>
      have hrest := ih (fun y hy => h y (List.mem_cons_of_mem x hy)) htail
      rw [List.mapM_cons, hrest]
      simp only [keyText_eq htext, h x (List.mem_cons_self ..) _ hhead]
      rfl

theorem takes_members {d : Decoder α} {encode : α → Value} {xs : List (String × α)}
    (hdepth : r.Allows (Value.object (xs.map fun x => (x.1, encode x.2))).nesting)
    (h : ∀ x ∈ xs, d.Takes r.inner (encode x.2) x.2) :
    (members d).Takes r (.object (xs.map fun x => (x.1, encode x.2))) xs := by
  intro t ht
  cases ht with
  | object span hmembers =>
    have hall := mapM_members_of_takes h hmembers
    rw [members, Reading.enter_of_allows hdepth Value.nesting_object_pos]
    show (do let xs ← List.mapM _ _; ends none span; pure xs) = _
    rw [hall]
    rfl

/-! ### Any values -/

theorem anyItems_of_takes {vs : List Value} {items : List Tree}
    (h : ∀ v ∈ vs, Takes any r v v) (hitems : SpellsItems items vs) :
    anyItems r items = .ok vs := by
  induction vs generalizing items with
  | nil =>
    cases hitems
    rfl
  | cons v vs ih =>
    cases hitems with
    | cons hhead htail =>
      have hrest := ih (fun w hw => h w (List.mem_cons_of_mem v hw)) htail
      rw [anyItems, h v (List.mem_cons_self ..) _ hhead, hrest]
      rfl

theorem anyMembers_of_takes {ms : List (String × Value)} {members : List (Key × Tree)}
    (h : ∀ m ∈ ms, Takes any r m.2 m.2) (hmembers : SpellsMembers members ms) :
    anyMembers r members = .ok ms := by
  induction ms generalizing members with
  | nil =>
    cases hmembers
    rfl
  | cons m ms ih =>
    cases hmembers with
    | cons htext hhead htail =>
      have hrest := ih (fun w hw => h w (List.mem_cons_of_mem _ hw)) htail
      rw [anyMembers, keyText_eq htext, h _ (List.mem_cons_self ..) _ hhead, hrest]
      rfl

theorem takes_any {v : Value} (hv : v.Ordered) {r : Reading} (hdepth : r.Allows v.nesting) :
    Takes any r v v := by
  induction hv generalizing r with
  | null | bool | number | string =>
    intro t h
    cases h
    rfl
  | @array items _ ih =>
    intro t h
    cases h with
    | list span hitems =>
      have hall := anyItems_of_takes (r := r.inner)
        (fun v hv => ih v hv (hdepth.inner (Value.nesting_lt_array hv))) hitems
      rw [any, Reading.enter_of_allows hdepth Value.nesting_array_pos]
      simp only [bind, Except.bind, hall]
      rfl
  | @object ms hkeys _ ih =>
    intro t h
    cases h with
    | object span hmembers =>
      have hall := anyMembers_of_takes (r := r.inner)
        (fun m hm => ih m hm (hdepth.inner (Value.nesting_lt_object hm))) hmembers
      rw [any, Reading.enter_of_allows hdepth Value.nesting_object_pos]
      simp only [bind, Except.bind, hall]
      rw [Keyed.ofList_of_sorted hkeys]
      rfl

theorem takes_record {rec : Record} (hrec : (Value.object rec).Ordered)
    (hdepth : r.Allows (Value.object rec).nesting) : record.Takes r (.object rec) rec := by
  intro t h
  cases hrec with
  | object hkeys hmem =>
    have hall : (members any).Takes r (.object (rec.map fun m => (m.1, id m.2))) rec :=
      takes_members (by simpa using hdepth) fun m hm =>
        takes_any (hmem m hm) (hdepth.inner (Value.nesting_lt_object hm))
    rw [record, hall t (by simpa using h)]
    exact congrArg Except.ok (Keyed.ofList_of_sorted hkeys)

end Decoder

/-! ## Records with fields -/

namespace Layout

open Decoder (Takes)

variable {α σ ρ : Type} {r : Reading} {l : Layout σ ρ}

/-- A member fills a slot, whatever tree spells its value. -/
def Fills (l : Layout σ ρ) (r : Reading) (k : String) (v : Value) (s s' : σ) : Prop :=
  ∀ t after, Spells t v → l.byKey r k after t s = some (.ok s')

/-- What the members of an object do to the slots. -/
def Reads (l : Layout σ ρ) (r : Reading) (members : List (String × Value)) (s s' : σ) : Prop :=
  ∀ ms, SpellsMembers ms members → l.readMembers r ms s = .ok s'

section Fields

variable {key k : String} {d : Decoder α} {default? : Option α} {v : Value} {x : α}
  {slot : Option α} {s s' : σ}

theorem fills_here (h : d.Takes r v x) :
    (field key d default? l).Fills r key v (none, s) (some x, s) := by
  intro t after ht
  simp only [field, if_pos, h t ht]
  rfl

theorem fills_there (hne : k ≠ key) (h : l.Fills r k v s s') :
    (field key d default? l).Fills r k v (slot, s) (slot, s') := by
  intro t after ht
  simp only [field, if_neg hne, h t after ht]
  rfl

end Fields

section Members

variable {k : String} {v : Value} {members rest : List (String × Value)} {s s₁ s' : σ}

theorem reads_nil : l.Reads r [] s s := by
  intro ms h
  cases h
  rfl

theorem Reads.cons (hhead : l.Fills r k v s s₁) (htail : l.Reads r rest s₁ s') :
    l.Reads r ((k, v) :: rest) s s' := by
  intro ms h
  cases h with
  | @cons key _ t _ ms _ htext hspells hms =>
    have hbyKey := hhead t key.after hspells
    rw [readMembers, Decoder.keyText_eq htext]
    simp only [bind, Except.bind, hbyKey]
    exact htail ms hms

theorem readMembers_past {key name : String} {d : Decoder α} {default? : Option α} {k : Key}
    {t : Tree} {ms : List (Key × Tree)} (htext : k.text = .ok name) (hne : name ≠ key)
    (h : l.readMembers r ((k, t) :: ms) s = .ok s') :
    ∃ s₁, l.readMembers r ms s₁ = .ok s' ∧ ∀ slot later,
      (field key d default? l).readMembers r ((k, t) :: later) (slot, s) =
        (field key d default? l).readMembers r later (slot, s₁) := by
  rw [readMembers, Decoder.keyText_eq htext] at h
  simp only [bind, Except.bind] at h
  cases hbyKey : l.byKey r name k.after t s with
  | none =>
    cases hskip : skip t with
    | error e =>
      simp only [hbyKey, hskip] at h
      cases h
    | ok _ =>
      simp only [hbyKey, hskip] at h
      refine ⟨s, h, fun slot later => ?_⟩
      rw [readMembers, Decoder.keyText_eq htext]
      simp only [field, if_neg hne, bind, Except.bind, hbyKey, Option.map_none, hskip]
  | some e =>
    cases e with
    | error e =>
      simp only [hbyKey] at h
      cases h
    | ok s₁ =>
      simp only [hbyKey] at h
      refine ⟨s₁, h, fun slot later => ?_⟩
      rw [readMembers, Decoder.keyText_eq htext]
      simp only [field, if_neg hne, bind, Except.bind, hbyKey, Option.map_some]
      rfl

theorem readMembers_behind {key : String} {d : Decoder α} {default? slot : Option α}
    {ms : List (Key × Tree)} (hms : SpellsMembers ms members) (hkeys : ∀ m ∈ members, m.1 ≠ key)
    (h : l.readMembers r ms s = .ok s') :
    (field key d default? l).readMembers r ms (slot, s) = .ok (slot, s') := by
  induction members generalizing ms s with
  | nil =>
    cases hms
    obtain rfl : s = s' := Except.ok.inj h
    rfl
  | cons m members ih =>
    obtain ⟨hne, hothers⟩ := List.forall_mem_cons.1 hkeys
    cases hms with
    | cons htext _ hms =>
      obtain ⟨s₁, hrest, hpast⟩ := readMembers_past htext hne h
      rw [hpast]
      exact ih hms hothers hrest

theorem Reads.written {key : String} {d : Decoder α} {default? : Option α} {x : α}
    (hd : d.Takes r v x) (hkeys : ∀ m ∈ rest, m.1 ≠ key) (h : l.Reads r rest l.start s) :
    (field key d default? l).Reads r ((key, v) :: rest) (none, l.start) (some x, s) :=
  .cons (fills_here hd) fun ms hms => readMembers_behind hms hkeys (h ms hms)

/-- An object whose members fill the slots is taken as the values that the slots come to. -/
theorem takes_object {name : String} {make : ρ → α} {values : ρ}
    (hdepth : r.Allows (Value.object members).nesting)
    (hreads : l.Reads r.inner members l.start s)
    (hfinish : l.finish (fun _ key => .missingField key) s = .ok values) :
    (l.decoder name make).Takes r (.object members) (make values) := by
  intro t h
  cases h with
  | object span hmembers =>
    rw [decoder, Reading.enter_of_allows hdepth Value.nesting_object_pos]
    simp only [bind, Except.bind, hreads _ hmembers, hfinish]
    rfl

end Members

end Layout

end Json

end Automation
