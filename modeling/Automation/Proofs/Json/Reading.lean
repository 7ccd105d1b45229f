import Automation.Json.Printer
import Automation.Json.Tree
import Automation.Proofs.Number.Numeral

/-!
# Printed text reads back

`Document.ofText_print` says that the JSON text of a value is read as a tree that spells the value,
with nothing left over.

A tree carries places, and a value none, so the two are compared by `Spells`, which looks past them.
The text of a number does not say where it ends.  What is read back is therefore text in front of
something that goes on no number: a comma, a bracket or nothing (`Delimited`).
-/

namespace Automation.Json

mutual

/-- A tree without faults that holds what a value holds. -/
inductive Spells : Tree → Value → Prop
  | null (span : Span) : Spells (.null span) .null
  | bool (b : Bool) (span : Span) : Spells (.bool b span) (.bool b)
  | number (n : Number) (span : Span) : Spells (.number (some n) span) (.number n)
  | string (s : String) (span : Span) : Spells (.string (.ok s) span) (.string s)
  | list {items : List Tree} {vs : List Value} (span : Span) (h : SpellsItems items vs) :
      Spells (.list items .closed span) (.array vs)
  | object {members : List (Key × Tree)} {r : List (String × Value)} (span : Span)
      (h : SpellsMembers members r) : Spells (.object members .closed span) (.object r)

inductive SpellsItems : List Tree → List Value → Prop
  | nil : SpellsItems [] []
  | cons {t : Tree} {v : Value} {ts : List Tree} {vs : List Value} (head : Spells t v)
      (tail : SpellsItems ts vs) : SpellsItems (t :: ts) (v :: vs)

inductive SpellsMembers : List (Key × Tree) → List (String × Value) → Prop
  | nil : SpellsMembers [] []
  | cons {key : Key} {k : String} {t : Tree} {v : Value} {ms : List (Key × Tree)}
      {r : List (String × Value)} (text : key.text = .ok k) (head : Spells t v)
      (tail : SpellsMembers ms r) : SpellsMembers ((key, t) :: ms) ((k, v) :: r)

end

mutual

theorem spells_ofValue : (v : Value) → Spells (.ofValue v) v
  | .null => .null _
  | .bool b => .bool b _
  | .number n => .number n _
  | .string s => .string s _
  | .array items => .list _ (spellsItems_trees items)
  | .object members => .object _ (spellsMembers_trees members)

theorem spellsItems_trees : (vs : List Value) → SpellsItems (treesOfItems vs) vs
  | [] => .nil
  | v :: vs => .cons (spells_ofValue v) (spellsItems_trees vs)

theorem spellsMembers_trees :
    (members : List (String × Value)) → SpellsMembers (treesOfMembers members) members
  | [] => .nil
  | (_, v) :: members => .cons rfl (spells_ofValue v) (spellsMembers_trees members)

end

theorem SpellsMembers.eraseIdx {ms : List (Key × Tree)} {members : List (String × Value)}
    (h : SpellsMembers ms members) (i : Nat) :
    SpellsMembers (ms.eraseIdx i) (members.eraseIdx i) := by
  induction i generalizing ms members with
  | zero =>
    cases h with
    | nil => exact .nil
    | cons htext hhead htail => exact htail
  | succ i ih =>
    cases h with
    | nil => exact .nil
    | cons htext hhead htail => exact .cons htext hhead (ih htail)

/-! ## Numbers -/

/-- What follows does not go on a number. -/
def Delimited (rest : List Char) : Prop :=
  ∀ c, rest.head? = some c → c.isDigit = false ∧ c ≠ '.' ∧ c ≠ 'e' ∧ c ≠ 'E'

theorem delimited_nil : Delimited [] := by
  intro c h
  cases h

theorem delimited_cons {c : Char} (h : c = ',' ∨ c = ']' ∨ c = '}') (rest : List Char) :
    Delimited (c :: rest) := by
  intro d hd
  obtain rfl : c = d := by simpa using hd
  rcases h with rfl | rfl | rfl <;> decide

section Numbers

variable {rest : List Char}

theorem takeWhile_digits (ds : Digits) (h : ∀ c, rest.head? = some c → c.isDigit = false) :
    (ds.chars ++ rest).takeWhile Char.isDigit = ds.chars ∧
      (ds.chars ++ rest).dropWhile Char.isDigit = rest := by
  rw [List.takeWhile_append_of_pos ds.isDigit, List.dropWhile_append_of_pos ds.isDigit]
  cases rest with
  | nil => simp
  | cons c s =>
    have hc := h c rfl
    simp [hc]

theorem head?_exponentText (e : Option (Bool × Digits)) (hrest : Delimited rest) (c : Char)
    (h : (Numeral.exponentText e ++ rest).head? = some c) : c.isDigit = false ∧ c ≠ '.' := by
  cases e with
  | none => exact ⟨(hrest c h).1, (hrest c h).2.1⟩
  | some e =>
    obtain rfl : 'e' = c := by simpa [Numeral.exponentText] using h
    decide

theorem readExponent_digits (number? : Int → Option Number) (start : List Char) (negative : Bool)
    (ds : Digits) (hrest : Delimited rest) :
    ∃ span, readExponent number? start ((if negative then '-' else '+') :: (ds.chars ++ rest)) =
      (.number (number? (Numeral.exponentValue negative ds)) span, some rest) := by
  obtain ⟨htake, hdrop⟩ := takeWhile_digits ds fun c hc => (hrest c hc).1
  have hne : ds.chars.isEmpty = false := by simpa using ds.ne_nil
  cases negative <;>
    simp [readExponent, htake, hdrop, hne, numberTree, Numeral.exponentValue]

theorem read_exponentText (number? : Option Int → Option Number) (start : List Char)
    (e : Option (Bool × Digits)) (hrest : Delimited rest) : ∃ span,
      (match Numeral.exponentText e ++ rest with
        | c :: r =>
          if c = 'e' ∨ c = 'E' then readExponent (fun e => number? (some e)) start r
          else numberTree (number? none) start (Numeral.exponentText e ++ rest)
            (Numeral.exponentText e ++ rest)
        | [] => numberTree (number? none) start (Numeral.exponentText e ++ rest)
            (Numeral.exponentText e ++ rest)) =
        (.number (number? (e.map fun (negative, ds) => Numeral.exponentValue negative ds)) span,
          some rest) := by
  cases e with
  | none =>
    cases rest with
    | nil => exact ⟨_, rfl⟩
    | cons c s =>
      obtain ⟨-, -, he, hE⟩ := hrest c rfl
      refine ⟨_, if_neg ?_⟩
      rintro (h | h)
      · exact he h
      · exact hE h
  | some e => exact readExponent_digits (fun e => number? (some e)) start e.1 e.2 hrest

/-- A numeral is read as its number. -/
theorem readNumber_text (q : Numeral) (negative : Bool) (start : List Char)
    (hrest : Delimited rest) : ∃ span, readNumber negative start (q.text ++ rest) =
      (.number (q.number? negative) span, some rest) := by
  have hne : q.whole.chars.isEmpty = false := by simpa using q.whole.ne_nil
  have hcanonical : ¬(q.whole.chars.head? = some '0' ∧ 1 < q.whole.chars.length) := by
    rintro ⟨hhead, hlength⟩
    have := q.canonical hhead
    omega
  have hend := fun c => head?_exponentText q.exponent hrest c
  rcases hfraction : q.fraction with _ | ds
  · obtain ⟨htake, hdrop⟩ := takeWhile_digits q.whole fun c hc => (hend c hc).1
    have htext : q.text ++ rest = q.whole.chars ++ (Numeral.exponentText q.exponent ++ rest) := by
      rw [Numeral.text, hfraction, Numeral.fractionText]
      simp
    obtain ⟨span, hread⟩ := read_exponentText
      (fun e => Number.ofParts? negative q.whole.chars none e) start q.exponent hrest
    refine ⟨span, ?_⟩
    rw [readNumber, htext, htake, hdrop, if_neg (by simp [hne]), if_neg hcanonical,
      Numeral.number?, hfraction]
    cases htail : Numeral.exponentText q.exponent ++ rest with
    | nil =>
      rw [htail] at hread
      exact hread
    | cons c s =>
      have hpoint := (hend c (by rw [htail]; rfl)).2
      rw [htail] at hread
      split
      · rename_i r heq
        injection heq with hc
        exact absurd hc hpoint
      · exact hread
  · have hne' : ds.chars.isEmpty = false := by simpa using ds.ne_nil
    have hpoint : ∀ c, ('.' :: (ds.chars ++ (Numeral.exponentText q.exponent ++ rest))).head? =
        some c → c.isDigit = false := by
      intro c hc
      obtain rfl : '.' = c := by simpa using hc
      decide
    obtain ⟨htake, hdrop⟩ := takeWhile_digits q.whole hpoint
    obtain ⟨htake', hdrop'⟩ := takeWhile_digits ds fun c hc => (hend c hc).1
    have htext : q.text ++ rest = q.whole.chars ++ '.' :: (ds.chars ++
        (Numeral.exponentText q.exponent ++ rest)) := by
      rw [Numeral.text, hfraction, Numeral.fractionText]
      simp
    obtain ⟨span, hread⟩ := read_exponentText
      (fun e => Number.ofParts? negative q.whole.chars (some ds.chars) e) start q.exponent hrest
    refine ⟨span, ?_⟩
    rw [readNumber, htext, htake, hdrop, if_neg (by simp [hne]), if_neg hcanonical,
      Numeral.number?, hfraction]
    split
    · rename_i r heq
      injection heq with _ hr
      rw [← hr, htake', hdrop', if_neg (by simp [hne'])]
      exact hread
    · rename_i hno
      exact absurd rfl (hno _)

end Numbers

/-! ## Strings -/

section Strings

variable (acc : List Char) (s : List Char)

theorem readString_skip (content : Except Misspelling (List Char)) (e s : List Char) :
    readString content e.length (e ++ s) = readString content 0 s := by
  induction e with
  | nil => rfl
  | cons c e ih =>
    rw [List.length_cons, List.cons_append, readString]
    exact ih

theorem readString_short {e x : Char} (hu : e ≠ 'u') (h : shortEscape? e = some x) :
    readString (.ok acc) 0 ('\\' :: e :: s) = readString (.ok (x :: acc)) 0 s := by
  rw [readString, if_neg (by decide), if_pos rfl]
  simp only [if_neg hu, h]
  exact readString_skip _ [e] s

theorem readString_plain {c : Char} (hquote : c ≠ '"') (hslash : c ≠ '\\')
    (hcontrol : ¬c.toNat < 0x20) :
    readString (.ok acc) 0 (c :: s) = readString (.ok (c :: acc)) 0 s := by
  rw [readString.eq_def]
  dsimp only
  rw [if_neg hquote, if_neg hslash, if_neg hcontrol]
  rfl

theorem value?_hexDigit : ∀ n < 16, Hex.value? (hexDigit n) = some n := by
  decide

theorem hexUnit?_control {c : Char} (h : c.toNat < 0x20) :
    hexUnit? ('0' :: '0' :: hexDigit (c.toNat / 16) :: hexDigit c.toNat :: s) = .ok c.toNat := by
  have hlow : hexDigit c.toNat = hexDigit (c.toNat % 16) := by simp [hexDigit]
  have h0 : Hex.value? '0' = some 0 := by decide
  have h1 := value?_hexDigit (c.toNat / 16) (by omega)
  have h2 := value?_hexDigit (c.toNat % 16) (by omega)
  rw [hexUnit?, hlow]
  simp only [List.take_succ_cons, List.take_zero, List.mapM_cons, List.mapM_nil, h0, h1, h2]
  show Except.ok _ = Except.ok _
  congr 1
  omega

theorem readString_escape (c : Char) :
    readString (.ok acc) 0 (escape c ++ s) = readString (.ok (c :: acc)) 0 s := by
  unfold escape
  by_cases hquote : c = '"'
  · subst hquote
    exact readString_short acc s (by decide) (by decide)
  by_cases hslash : c = '\\'
  · subst hslash
    exact readString_short acc s (by decide) (by decide)
  by_cases hn : c = '\n'
  · subst hn
    exact readString_short acc s (by decide) (by decide)
  by_cases hr : c = '\r'
  · subst hr
    exact readString_short acc s (by decide) (by decide)
  by_cases ht : c = '\t'
  · subst ht
    exact readString_short acc s (by decide) (by decide)
  by_cases hb : c = '\x08'
  · subst hb
    exact readString_short acc s (by decide) (by decide)
  by_cases hf : c = '\x0c'
  · subst hf
    exact readString_short acc s (by decide) (by decide)
  rw [if_neg hquote, if_neg hslash, if_neg hn, if_neg hr, if_neg ht, if_neg hb, if_neg hf]
  by_cases hcontrol : c.toNat < 0x20
  · have hunit := hexUnit?_control s hcontrol
    have htrail : isTrailing c.toNat = false := by
      simp only [isTrailing, Bool.and_eq_false_iff, decide_eq_false_iff_not]
      omega
    have hlead : isLeading c.toNat = false := by
      simp only [isLeading, Bool.and_eq_false_iff, decide_eq_false_iff_not]
      omega
    have hskip := readString_skip (.ok (c :: acc))
      ['u', '0', '0', hexDigit (c.toNat / 16), hexDigit c.toNat] s
    rw [if_pos hcontrol, unicodeEscape]
    show readString (.ok acc) 0 ('\\' :: 'u' :: '0' :: '0' :: hexDigit (c.toNat / 16) ::
      hexDigit c.toNat :: s) = _
    rw [readString, if_neg (by decide), if_pos rfl]
    simp only [if_pos, hunit, htrail, hlead, Except.map, Char.ofNat_toNat]
    exact hskip
  · rw [if_neg hcontrol]
    exact readString_plain acc s hquote hslash hcontrol

theorem readString_quoted (content : List Char) :
    readString (.ok acc) 0 (content.flatMap escape ++ '"' :: s) =
      .closed (.ok (.ofList (acc.reverse ++ content))) s := by
  induction content generalizing acc with
  | nil =>
    rw [List.flatMap_nil, List.nil_append, List.append_nil, readString.eq_def]
    rfl
  | cons c content ih =>
    rw [List.flatMap_cons, List.append_assoc, readString_escape, ih, List.reverse_cons,
      List.append_assoc]
    rfl

end Strings

/-! ## Values -/

section Values

def Opens (c : Char) : Prop := isSpace c = false ∧ c ≠ ']' ∧ c ≠ '}'

theorem skipSpace_cons {c : Char} (h : isSpace c = false) (s : List Char) :
    skipSpace (c :: s) = c :: s := by
  simp [skipSpace, h]

theorem opens_digit {c : Char} (h : c.isDigit) : Opens c := by
  have hdigit : '0'.toNat ≤ c.toNat ∧ c.toNat ≤ '9'.toNat := by
    simpa [Char.isDigit, UInt32.le_iff_toNat_le] using h
  refine ⟨?_, ?_, ?_⟩
  · simp only [isSpace, Bool.or_eq_false_iff, decide_eq_false_iff_not]
    refine ⟨⟨⟨?_, ?_⟩, ?_⟩, ?_⟩ <;>
    · rintro rfl
      simp at hdigit
  · rintro rfl
    simp at hdigit
  · rintro rfl
    simp at hdigit

/-- The text of a number is a minus sign and a numeral, or a numeral, which starts with a digit. -/
theorem opens_number (n : Number) : ∃ c s, n.json = c :: s ∧ Opens c := by
  obtain ⟨negative, q, htext, -⟩ := n.exists_numeral
  rw [htext]
  cases negative with
  | true => exact ⟨_, _, rfl, by decide, by decide, by decide⟩
  | false =>
    obtain ⟨c, s, hwhole⟩ := List.exists_cons_of_ne_nil q.whole.ne_nil
    refine ⟨c, s ++ (Numeral.fractionText q.fraction ++ Numeral.exponentText q.exponent), ?_,
      opens_digit (q.whole.isDigit c (by simp [hwhole]))⟩
    simp [Numeral.text, hwhole]

theorem opens_print (v : Value) : ∃ c s, print v = c :: s ∧ Opens c := by
  cases v with
  | null => exact ⟨_, _, print.eq_1, by decide, by decide, by decide⟩
  | bool b =>
    cases b with
    | true => exact ⟨_, _, print.eq_2, by decide, by decide, by decide⟩
    | false => exact ⟨_, _, print.eq_3, by decide, by decide, by decide⟩
  | number n =>
    rw [print]
    exact opens_number n
  | string s => exact ⟨_, _, by rw [print, quote], by decide, by decide, by decide⟩
  | array items => exact ⟨_, _, by rw [print], by decide, by decide, by decide⟩
  | object members => exact ⟨_, _, by rw [print], by decide, by decide, by decide⟩

theorem readValue_number (n : Number) (fuel : Nat) {rest : List Char} (hrest : Delimited rest) :
    ∃ t, Spells t (.number n) ∧ readValue (fuel + 1) (n.json ++ rest) = (t, some rest) := by
  obtain ⟨negative, q, htext, hn⟩ := n.exists_numeral
  rw [htext]
  cases negative with
  | true =>
    obtain ⟨span, hread⟩ := readNumber_text q true ('-' :: (q.text ++ rest)) hrest
    rw [hn] at hread
    refine ⟨_, .number n span, ?_⟩
    rw [← hread]
    rfl
  | false =>
    obtain ⟨span, hread⟩ := readNumber_text q false (q.text ++ rest) hrest
    rw [hn] at hread
    refine ⟨_, .number n span, ?_⟩
    obtain ⟨c, s, hwhole⟩ := List.exists_cons_of_ne_nil q.whole.ne_nil
    have hc : c.isDigit := q.whole.isDigit c (by simp [hwhole])
    have hcons : q.text ++ rest =
        c :: (s ++ (Numeral.fractionText q.fraction ++ Numeral.exponentText q.exponent) ++ rest) := by
      simp [Numeral.text, hwhole]
    have hne : c ≠ 'n' ∧ c ≠ 't' ∧ c ≠ 'f' ∧ c ≠ '-' := by
      refine ⟨?_, ?_, ?_, ?_⟩ <;>
      · rintro rfl
        simp at hc
    obtain ⟨hn', ht, hf, hm⟩ := hne
    rw [← hread, if_neg (by decide), List.nil_append, hcons]
    simp only [readValue, skipSpace_cons (opens_digit hc).1, if_neg hn', if_neg ht, if_neg hf,
      if_neg hm, if_pos hc]

theorem opens_printItems (v : Value) (vs : List Value) :
    ∃ c s, printItems (v :: vs) = c :: s ∧ Opens c := by
  obtain ⟨c, s, htext, hopens⟩ := opens_print v
  cases vs with
  | nil => exact ⟨c, s, by rw [printItems, htext], hopens⟩
  | cons w vs => exact ⟨c, _, by rw [printItems, htext, List.cons_append], hopens⟩

theorem printMembers_cons (k : String) (v : Value) (ms : List (String × Value)) :
    ∃ s, printMembers ((k, v) :: ms) = '"' :: s := by
  cases ms with
  | nil => exact ⟨_, by rw [printMembers, quote, List.cons_append]⟩
  | cons m ms => exact ⟨_, by rw [printMembers, quote, List.cons_append]⟩

theorem readMembers_quote (k : String) (fuel : Nat) (s : List Char) :
    ∃ key : Key, key.text = .ok k ∧ ∀ t c rest, readValue fuel s = (t, some (c :: rest)) →
      (c = '}' → readMembers (fuel + 1) (quote k.toList ++ ':' :: s) =
        (([(key, t)], .closed, rest), some rest)) ∧
      (c = ',' → ∀ ms ending after left more, rest = '"' :: more →
        readMembers fuel rest = ((ms, ending, after), left) →
          readMembers (fuel + 1) (quote k.toList ++ ':' :: s) =
            (((key, t) :: ms, ending, after), left)) := by
  have hkey := readString_quoted [] (':' :: s) k.toList
  rw [List.reverse_nil, List.nil_append, String.ofList_toList] at hkey
  refine ⟨⟨.ok k, ':' :: s⟩, rfl, ?_⟩
  intro t c rest hread
  rw [quote, List.cons_append, List.append_assoc, List.cons_append, List.nil_append]
  constructor
  · rintro rfl
    simp [readMembers, skipSpace_cons (show isSpace '"' = false by decide),
      skipSpace_cons (show isSpace ':' = false by decide),
      skipSpace_cons (show isSpace '}' = false by decide), hkey, hread]
  · rintro rfl ms ending after left more rfl hrest
    simp [readMembers, skipSpace_cons (show isSpace '"' = false by decide),
      skipSpace_cons (show isSpace ':' = false by decide),
      skipSpace_cons (show isSpace ',' = false by decide), hkey, hread, hrest]

theorem succ_of_le {n fuel : Nat} (h : n ≤ fuel) (hn : 0 < n) : ∃ k, fuel = k + 1 :=
  ⟨fuel - 1, by omega⟩

def ReadsBack (v : Value) : Prop :=
  ∀ (fuel : Nat) (rest : List Char), 2 * (print v).length ≤ fuel → Delimited rest →
    ∃ t, Spells t v ∧ readValue fuel (print v ++ rest) = (t, some rest)

theorem readItems_print (v : Value) (vs : List Value) (h : ∀ w ∈ v :: vs, ReadsBack w) (fuel : Nat)
    (rest : List Char) (hfuel : 2 * (printItems (v :: vs)).length + 1 ≤ fuel) :
    ∃ ts, SpellsItems ts (v :: vs) ∧
      readItems fuel (printItems (v :: vs) ++ ']' :: rest) = ((ts, .closed, rest), some rest) := by
  -- The fuel is by the length of the text, so each item and comma leaves enough for the rest.
  induction vs generalizing v fuel with
  | nil =>
    obtain ⟨fuel, rfl⟩ := succ_of_le hfuel (by omega)
    rw [printItems] at hfuel ⊢
    obtain ⟨t, hspells, hread⟩ := h v (List.mem_cons_self ..) fuel (']' :: rest) (by omega)
      (delimited_cons (by decide) rest)
    refine ⟨[t], .cons hspells .nil, ?_⟩
    rw [readItems, hread]
    rfl
  | cons w vs ih =>
    obtain ⟨fuel, rfl⟩ := succ_of_le hfuel (by omega)
    rw [printItems, List.length_append, List.length_cons] at hfuel
    rw [printItems, List.append_assoc, List.cons_append]
    obtain ⟨t, hhead, hread⟩ := h v (List.mem_cons_self ..) fuel
      (',' :: (printItems (w :: vs) ++ ']' :: rest)) (by omega) (delimited_cons (by decide) _)
    obtain ⟨ts, htail, hrest⟩ := ih w (fun x hx => h x (List.mem_cons_of_mem v hx)) fuel (by omega)
    obtain ⟨c, s, hitems, hspace, hbracket, -⟩ := opens_printItems w vs
    refine ⟨t :: ts, .cons hhead htail, ?_⟩
    rw [hitems, List.cons_append] at hrest hread ⊢
    simp only [readItems, hread, skipSpace_cons (show isSpace ',' = false by decide),
      skipSpace_cons hspace]
    simp [hbracket, hrest]

theorem readMembers_print (k : String) (v : Value) (ms : List (String × Value))
    (h : ∀ m ∈ (k, v) :: ms, ReadsBack m.2) (fuel : Nat) (rest : List Char)
    (hfuel : 2 * (printMembers ((k, v) :: ms)).length + 1 ≤ fuel) :
    ∃ ts, SpellsMembers ts ((k, v) :: ms) ∧
      readMembers fuel (printMembers ((k, v) :: ms) ++ '}' :: rest) =
        ((ts, .closed, rest), some rest) := by
  induction ms generalizing k v fuel with
  | nil =>
    obtain ⟨fuel, rfl⟩ := succ_of_le hfuel (by omega)
    rw [printMembers, List.length_append, List.length_cons] at hfuel
    obtain ⟨t, hspells, hread⟩ := h (k, v) (List.mem_cons_self ..) fuel ('}' :: rest)
      (by dsimp only; omega) (delimited_cons (by decide) rest)
    obtain ⟨key, hkey, hmember⟩ := readMembers_quote k fuel (print v ++ '}' :: rest)
    refine ⟨[(key, t)], .cons hkey hspells .nil, ?_⟩
    rw [printMembers, List.append_assoc, List.cons_append]
    exact (hmember t '}' rest hread).1 rfl
  | cons m ms ih =>
    obtain ⟨k', w⟩ := m
    obtain ⟨fuel, rfl⟩ := succ_of_le hfuel (by omega)
    rw [printMembers, List.length_append, List.length_cons, List.length_append, List.length_cons]
      at hfuel
    obtain ⟨t, hhead, hread⟩ := h (k, v) (List.mem_cons_self ..) fuel
      (',' :: (printMembers ((k', w) :: ms) ++ '}' :: rest)) (by dsimp only; omega)
      (delimited_cons (by decide) _)
    obtain ⟨ts, htail, hrest⟩ := ih k' w (fun x hx => h x (List.mem_cons_of_mem _ hx)) fuel
      (by omega)
    obtain ⟨key, hkey, hmember⟩ := readMembers_quote k fuel
      (print v ++ ',' :: (printMembers ((k', w) :: ms) ++ '}' :: rest))
    obtain ⟨s, hmore⟩ := printMembers_cons k' w ms
    refine ⟨(key, t) :: ts, .cons hkey hhead htail, ?_⟩
    rw [printMembers, List.append_assoc, List.cons_append, List.append_assoc, List.cons_append]
    exact (hmember t ',' _ hread).2 rfl ts .closed rest (some rest) (s ++ '}' :: rest)
      (by rw [hmore, List.cons_append]) hrest

theorem readsBack_scalar {v : Value} (word : List Char) (hprint : print v = word)
    (h : ∀ fuel rest, ∃ t, Spells t v ∧ readValue (fuel + 1) (word ++ rest) = (t, some rest))
    (hne : 0 < word.length) : ReadsBack v := by
  intro fuel rest hfuel _
  rw [hprint] at hfuel ⊢
  obtain ⟨fuel, rfl⟩ := succ_of_le hfuel (by omega)
  exact h fuel rest

theorem readsBack_array (items : List Value) (h : ∀ v ∈ items, ReadsBack v) :
    ReadsBack (.array items) := by
  cases items with
  | nil =>
    exact readsBack_scalar ['[', ']'] (by rw [print, printItems]; rfl)
      (fun _ rest => ⟨_, .list ⟨_, rest⟩ .nil, rfl⟩) (by decide)
  | cons v vs =>
    intro fuel rest hfuel _
    obtain ⟨fuel, rfl⟩ := succ_of_le hfuel (by rw [print]; simp)
    have hlength : (print (.array (v :: vs))).length = (printItems (v :: vs)).length + 2 := by
      rw [print]
      simp
    obtain ⟨ts, hspells, hread⟩ := readItems_print v vs h fuel rest (by omega)
    obtain ⟨c, s, hitems, hspace, hbracket, -⟩ := opens_printItems v vs
    refine ⟨.list ts .closed ⟨'[' :: (printItems (v :: vs) ++ ']' :: rest), rest⟩,
      .list _ hspells, ?_⟩
    rw [hitems, List.cons_append] at hread
    rw [print, List.cons_append, List.append_assoc, List.cons_append, List.nil_append, hitems,
      List.cons_append]
    simp only [readValue, skipSpace_cons (show isSpace '[' = false by decide),
      skipSpace_cons hspace]
    simp [hbracket, hread]

theorem readsBack_object (members : List (String × Value)) (h : ∀ m ∈ members, ReadsBack m.2) :
    ReadsBack (.object members) := by
  cases members with
  | nil =>
    exact readsBack_scalar ['{', '}'] (by rw [print, printMembers]; rfl)
      (fun _ rest => ⟨_, .object ⟨_, rest⟩ .nil, rfl⟩) (by decide)
  | cons m ms =>
    obtain ⟨k, v⟩ := m
    intro fuel rest hfuel _
    obtain ⟨fuel, rfl⟩ := succ_of_le hfuel (by rw [print]; simp)
    have hlength : (print (.object ((k, v) :: ms))).length =
        (printMembers ((k, v) :: ms)).length + 2 := by
      rw [print]
      simp
    obtain ⟨ts, hspells, hread⟩ := readMembers_print k v ms h fuel rest (by omega)
    obtain ⟨s, hmembers⟩ := printMembers_cons k v ms
    refine ⟨.object ts .closed ⟨'{' :: (printMembers ((k, v) :: ms) ++ '}' :: rest), rest⟩,
      .object _ hspells, ?_⟩
    rw [hmembers, List.cons_append] at hread
    rw [print, List.cons_append, List.append_assoc, List.cons_append, List.nil_append, hmembers,
      List.cons_append]
    simp only [readValue, skipSpace_cons (show isSpace '{' = false by decide),
      skipSpace_cons (show isSpace '"' = false by decide)]
    simp [hread]

theorem sizeOf_lt_of_mem_members {m : String × Value} {members : List (String × Value)}
    (h : m ∈ members) : sizeOf m.2 < sizeOf members := by
  have hmem := List.sizeOf_lt_of_mem h
  have hpair : sizeOf m = 1 + sizeOf m.1 + sizeOf m.2 := rfl
  omega

/-- Whatever the value, its text is read as the value. -/
theorem readsBack : ∀ v : Value, ReadsBack v
  | .null =>
    readsBack_scalar _ print.eq_1 (fun _ rest => ⟨_, .null ⟨_, rest⟩, rfl⟩) (by decide)
  | .bool true =>
    readsBack_scalar _ print.eq_2 (fun _ rest => ⟨_, .bool true ⟨_, rest⟩, rfl⟩) (by decide)
  | .bool false =>
    readsBack_scalar _ print.eq_3 (fun _ rest => ⟨_, .bool false ⟨_, rest⟩, rfl⟩) (by decide)
  | .number n => by
    intro fuel rest hfuel hrest
    obtain ⟨c, s, htext, -⟩ := opens_number n
    obtain ⟨fuel, rfl⟩ := succ_of_le hfuel (by rw [print, htext]; simp)
    rw [print]
    exact readValue_number n fuel hrest
  | .string s => by
    refine readsBack_scalar (quote s.toList) (by rw [print]) (fun fuel rest => ?_)
      (by rw [quote]; simp)
    have hread := readString_quoted [] rest s.toList
    rw [List.reverse_nil, List.nil_append, String.ofList_toList] at hread
    refine ⟨_, .string s ⟨quote s.toList ++ rest, rest⟩, ?_⟩
    rw [quote, List.cons_append, List.append_assoc, List.cons_append, List.nil_append]
    simp only [readValue, skipSpace_cons (show isSpace '"' = false by decide)]
    simp [hread]
  | .array items => readsBack_array items fun v _ => readsBack v
  | .object members => readsBack_object members fun m _ => readsBack m.2
decreasing_by
  · have := List.sizeOf_lt_of_mem ‹v ∈ items›
    simp
    omega
  · have := sizeOf_lt_of_mem_members ‹m ∈ members›
    simp
    omega

end Values

/-- The text of a value is read as the value, to its end. -/
theorem Document.ofText_print (v : Value) :
    ∃ t, Spells t v ∧ Document.ofText (print v) = ⟨t, []⟩ := by
  obtain ⟨t, hspells, hread⟩ := readsBack v (2 * (print v).length + 2) [] (by omega)
    delimited_nil
  rw [List.append_nil] at hread
  refine ⟨t, hspells, ?_⟩
  rw [Document.ofText, hread]
  rfl

end Automation.Json
