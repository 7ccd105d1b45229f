import Automation.Proofs.Comparison.Numeric
import Automation.Proofs.Text.Ascii

/-!
# The number that a text counts as

What the scanner takes of a text is its longest numeric beginning, up to a point at the end of that
(`IsLongest.exists_numeric`).  Nothing in it is longer than a byte, so the bytes of a text may be scanned
instead of its characters (`numericPrefix_octets`), and it is always a number (`exists_doubleOf?`).
`Value.toNumber_string` puts that together.
-/

namespace Automation

/-! ## The point at the end -/

def withoutPoint (s : List Char) : List Char := if s.getLast? = some '.' then s.dropLast else s

theorem withoutPoint_of_endsInDigit {s : List Char} (h : EndsInDigit s) : withoutPoint s = s := by
  obtain ⟨r, c, rfl, hc⟩ := h
  refine if_neg fun hlast => ?_
  obtain rfl : c = '.' := by simpa using hlast
  cases hc

theorem withoutPoint_append (s : List Char) : withoutPoint (s ++ ['.']) = s := by
  rw [withoutPoint, if_pos (List.getLast?_concat ..), List.dropLast_concat]

/-- Of the numeric beginnings of a text the longest differs from the longest that ends with a digit by a
point at most. -/
theorem IsLongest.exists_numeric {s p : List Char} (h : IsLongest IsClosed s p) :
    ∃ g, IsLongest IsNumeric s g ∧ p = withoutPoint g := by
  have hbound : ∀ v, v <+: s → IsNumeric v → v.length ≤ p.length ∨ v = p ++ ['.'] := by
    intro v hv hnumeric
    obtain hclosed | ⟨r, rfl, hclosed⟩ := hnumeric.closed_or_pointed
    · exact .inl (h.longest v hv hclosed)
    · have hr : r <+: s := (List.prefix_append r ['.']).trans hv
      have hle := h.longest r hr hclosed
      by_cases heq : r.length = p.length
      · have hrp : r = p := (List.prefix_of_prefix_length_le hr h.begins hle).eq_of_length heq
        exact .inr (by rw [hrp])
      · rw [List.length_append, List.length_singleton]
        exact .inl (by omega)
  by_cases hpoint : p ++ ['.'] <+: s ∧ IsNumeric (p ++ ['.'])
  · refine ⟨p ++ ['.'], ⟨hpoint.1, hpoint.2, fun v hv hnumeric => ?_⟩, (withoutPoint_append p).symm⟩
    obtain hle | rfl := hbound v hv hnumeric
    · rw [List.length_append]
      omega
    · exact Nat.le_refl _
  · refine ⟨p, ⟨h.begins, h.holds.1, fun v hv hnumeric => ?_⟩,
      (withoutPoint_of_endsInDigit h.holds.2).symm⟩
    obtain hle | rfl := hbound v hv hnumeric
    · exact hle
    · exact absurd ⟨hv, hnumeric⟩ hpoint

theorem not_isNumeric_of_not_isClosed {s : List Char} (h : ∀ v, v <+: s → ¬IsClosed v) :
    ∀ v, v <+: s → ¬IsNumeric v := by
  intro v hv hnumeric
  obtain hclosed | ⟨r, rfl, hclosed⟩ := hnumeric.closed_or_pointed
  · exact h v hv hclosed
  · exact h r ((List.prefix_append r ['.']).trans hv) hclosed

/-! ## Bytes -/

theorem isAscii_append {s t : List Char} : IsAscii (s ++ t) ↔ IsAscii s ∧ IsAscii t :=
  List.forall_mem_append

theorem AllDigits.isAscii {s : List Char} (h : AllDigits s) : IsAscii s := by
  intro c hc
  have hdigit := h c hc
  have hrange : '0'.toNat ≤ c.toNat ∧ c.toNat ≤ '9'.toNat := by
    simpa [Char.isDigit, UInt32.le_iff_toNat_le] using hdigit
  have hnine : '9'.toNat = 57 := rfl
  omega

theorem IsSign.isAscii {s : List Char} (h : IsSign s) : IsAscii s := by
  obtain rfl | rfl | rfl := h <;> simp [IsAscii]

theorem IsNumeric.isAscii {s : List Char} (h : IsNumeric s) : IsAscii s := by
  obtain ⟨sign, number, hsign, ⟨m, x, hm, hx, rfl⟩, rfl⟩ := h
  refine isAscii_append.2 ⟨hsign.isAscii, isAscii_append.2 ⟨?_, ?_⟩⟩
  · cases hm with
    | whole ha _ => exact ha.isAscii
    | pointed ha hb _ =>
      exact isAscii_append.2 ⟨ha.isAscii, List.forall_mem_cons.2 ⟨by decide, hb.isAscii⟩⟩
  · obtain rfl | ⟨e, esign, ds, he, hesign, hds, -, rfl⟩ := hx
    · exact nofun
    · refine List.forall_mem_cons.2 ⟨?_, isAscii_append.2 ⟨hesign.isAscii, hds.isAscii⟩⟩
      obtain rfl | rfl := he <;> decide

/-- Scanning the bytes of a text instead of its characters takes the same beginning. -/
theorem numericPrefix_octets (s : List Char) : numericPrefix (Utf8.octets s) = numericPrefix s := by
  have hbegins : ∀ v, IsClosed v → (v <+: Utf8.octets s ↔ v <+: s) := fun v hv =>
    Utf8.prefix_octets_iff hv.1.isAscii s
  obtain h | ⟨hnone, heq⟩ := numericPrefix_longest s
  · obtain h' | ⟨hnone', -⟩ := numericPrefix_longest (Utf8.octets s)
    · refine IsLongest.unique ⟨(hbegins _ h'.holds).1 h'.begins, h'.holds, fun v hv hclosed => ?_⟩ h
      exact h'.longest v ((hbegins v hclosed).2 hv) hclosed
    · exact absurd h.holds (hnone' _ ((hbegins _ h.holds).2 h.begins))
  · obtain h' | ⟨-, heq'⟩ := numericPrefix_longest (Utf8.octets s)
    · exact absurd h'.holds (hnone _ ((hbegins _ h'.holds).1 h'.begins))
    · rw [heq, heq']

theorem take_encode_numericPrefix (s : List Char) :
    (Utf8.encode s).take (numericPrefix s).length = Utf8.encode (numericPrefix s) := by
  obtain h | ⟨-, heq⟩ := numericPrefix_longest s
  · exact Utf8.take_encode_ascii h.holds.1.isAscii h.begins
  · rw [heq]
    rfl

/-! ## The number -/

theorem splitSign_append {sign s : List Char} (hsign : IsSign sign)
    (hs : ∀ c, s.head? = some c → ¬(c = '+' ∨ c = '-')) :
    splitSign (sign ++ s) = (decide (sign = ['-']), s) := by
  obtain rfl | rfl | rfl := hsign
  · rw [List.nil_append]
    unfold splitSign
    split
    · exact absurd (.inr rfl) (hs _ rfl)
    · exact absurd (.inl rfl) (hs _ rfl)
    · rfl
  · rfl
  · rfl

theorem span_allDigits {a x : List Char} (ha : AllDigits a)
    (hx : ∀ c, x.head? = some c → c.isDigit = false) :
    (a ++ x).takeWhile Char.isDigit = a ∧ (a ++ x).dropWhile Char.isDigit = x := by
  rw [List.takeWhile_append_of_pos ha, List.dropWhile_append_of_pos ha]
  cases x with
  | nil => simp
  | cons c x =>
    have hc := hx c rfl
    simp [hc]

theorem not_sign_of_digits {a x : List Char} (ha : AllDigits a)
    (hx : a = [] → ∀ c, x.head? = some c → ¬(c = '+' ∨ c = '-')) (c : Char)
    (hc : (a ++ x).head? = some c) : ¬(c = '+' ∨ c = '-') := by
  cases a with
  | nil => exact hx rfl c hc
  | cons d a =>
    obtain rfl : d = c := by simpa using hc
    simp [ne_of_isDigit (ha d List.mem_cons_self)]

/-- The power of ten that what stands behind the digits of a number says. -/
def scaleOf? : List Char → Option Int
  | [] => some 0
  | c :: r => if c = 'e' ∨ c = 'E' then exponentOf? r else none

section Spelled

variable {sign a b x : List Char}

theorem head?_of_scale (hx : x = [] ∨ IsExponent x) (c : Char) (hc : x.head? = some c) :
    c = 'e' ∨ c = 'E' := by
  obtain rfl | ⟨e, esign, ds, he, -, -, -, rfl⟩ := hx
  · cases hc
  · obtain rfl : e = c := by simpa using hc
    exact he

theorem doubleOf?_whole (hsign : IsSign sign) (ha : AllDigits a) (hne : a ≠ [])
    (hx : x = [] ∨ IsExponent x) :
    doubleOf? (sign ++ (a ++ x)) = (scaleOf? x).map fun e =>
      (Decimal.ofParts a [] e).toBinary .double (sign = ['-']) := by
  have hhead := head?_of_scale hx
  obtain ⟨htake, hdrop⟩ := span_allDigits ha (x := x) fun c hc => by
    obtain rfl | rfl := hhead c hc <;> rfl
  have hs := not_sign_of_digits (x := x) ha fun hnil => absurd hnil hne
  rw [doubleOf?, splitSign_append hsign hs]
  dsimp only
  rw [htake, hdrop]
  cases x with
  | nil => simp [hne, scaleOf?]
  | cons c x =>
    obtain rfl | rfl := hhead c rfl <;> simp [hne, scaleOf?]

theorem doubleOf?_pointed (hsign : IsSign sign) (ha : AllDigits a) (hb : AllDigits b)
    (hne : a ≠ [] ∨ b ≠ []) (hx : x = [] ∨ IsExponent x) :
    doubleOf? (sign ++ (a ++ '.' :: (b ++ x))) = (scaleOf? x).map fun e =>
      (Decimal.ofParts a b e).toBinary .double (sign = ['-']) := by
  have hhead := head?_of_scale hx
  have hs := not_sign_of_digits (x := '.' :: (b ++ x)) ha fun _ c hc => by
    obtain rfl : '.' = c := by simpa using hc
    decide
  have hpoint : ∀ c, ('.' :: (b ++ x)).head? = some c → c.isDigit = false := by
    intro c hc
    obtain rfl : '.' = c := by simpa using hc
    rfl
  obtain ⟨htake, hdrop⟩ := span_allDigits ha hpoint
  obtain ⟨htake', hdrop'⟩ := span_allDigits hb (x := x) fun c hc => by
    obtain rfl | rfl := hhead c hc <;> rfl
  rw [doubleOf?, splitSign_append hsign hs]
  dsimp only
  rw [htake, hdrop]
  simp only [htake', hdrop']
  have hempty : ¬(a.isEmpty && b.isEmpty) = true := by
    rw [Bool.and_eq_true, List.isEmpty_iff, List.isEmpty_iff]
    exact fun h => hne.elim (absurd h.1) (absurd h.2)
  rw [if_neg hempty]
  cases x with
  | nil => rfl
  | cons c x => obtain rfl | rfl := hhead c rfl <;> rfl

theorem scaleOf?_exponent (hx : IsExponent x) : ∃ e, scaleOf? x = some e := by
  obtain ⟨e, esign, ds, he, hesign, hds, hne, rfl⟩ := hx
  have hs := not_sign_of_digits (x := []) hds fun hnil => absurd hnil hne
  rw [List.append_nil] at hs
  have hall : ds.all Char.isDigit = true := List.all_eq_true.2 hds
  rw [scaleOf?, if_pos he, exponentOf?, splitSign_append hesign hs]
  exact ⟨_, if_neg (by simp [hne, hall])⟩

theorem exists_doubleOf? {s : List Char} (h : IsNumeric s) :
    ∃ (negative : Bool) (d : Decimal), doubleOf? s = some (d.toBinary .double negative) := by
  obtain ⟨sign, number, hsign, ⟨m, x, hm, hx, rfl⟩, rfl⟩ := h
  obtain ⟨e, he⟩ : ∃ e, scaleOf? x = some e := by
    obtain rfl | hx := hx
    · exact ⟨0, rfl⟩
    · exact scaleOf?_exponent hx
  cases hm with
  | whole ha hne =>
    rw [doubleOf?_whole hsign ha hne hx, he]
    exact ⟨_, _, rfl⟩
  | pointed ha hb hne =>
    rw [List.append_assoc, List.cons_append, doubleOf?_pointed hsign ha hb hne hx, he]
    exact ⟨_, _, rfl⟩

end Spelled

/-- What is taken of a text: its longest numeric beginning, a point at the end of that left out, or nothing
if it has no numeric beginning. -/
def IsTaken (t p : List Char) : Prop :=
  (∃ g, IsLongest IsNumeric t g ∧ p = withoutPoint g) ∨ (∀ v, v <+: t → ¬IsNumeric v) ∧ p = []

theorem isTaken_numericPrefix (t : List Char) : IsTaken t (numericPrefix t) := by
  obtain h | ⟨hnone, hp⟩ := numericPrefix_longest t
  · exact .inl h.exists_numeric
  · exact .inr ⟨not_isNumeric_of_not_isClosed hnone, hp⟩

theorem doubleOf?_numericPrefix (t : List Char) :
    numericPrefix t = [] ∧ doubleOf? (numericPrefix t) = none ∨
      numericPrefix t ≠ [] ∧
        ∃ (negative : Bool) (d : Decimal),
          doubleOf? (numericPrefix t) = some (d.toBinary .double negative) := by
  obtain h | ⟨-, hp⟩ := numericPrefix_longest t
  · refine .inr ⟨?_, exists_doubleOf? h.holds.1⟩
    intro hnil
    exact not_isClosed_nil (hnil ▸ h.holds)
  · rw [hp]
    exact .inl ⟨rfl, rfl⟩

/-- A string counts as the number that its longest numeric beginning spells, a point at the end of that left
out, and as zero only if it has no numeric beginning.  It does not matter that bytes are scanned. -/
theorem Value.toNumber_string (s : String) :
    IsTaken (Text.trim s.toList) (numericPrefix (Text.trim s.toList)) ∧
      (Utf8.encode (Text.trim s.toList)).take
          (numericPrefix (Utf8.octets (Text.trim s.toList))).length =
        Utf8.encode (numericPrefix (Text.trim s.toList)) ∧
      (numericPrefix (Text.trim s.toList) ≠ [] →
        ∃ x, doubleOf? (numericPrefix (Text.trim s.toList)) = some x ∧
          (Value.string s).toNumber = x) ∧
      (numericPrefix (Text.trim s.toList) = [] →
        doubleOf? (numericPrefix (Text.trim s.toList)) = none ∧ (Value.string s).toNumber = .zero) := by
  have hbytes : (Utf8.encode (Text.trim s.toList)).take
      (numericPrefix (Utf8.octets (Text.trim s.toList))).length =
        Utf8.encode (numericPrefix (Text.trim s.toList)) := by
    rw [numericPrefix_octets]
    exact take_encode_numericPrefix _
  refine ⟨isTaken_numericPrefix _, hbytes, ?_⟩
  rw [toNumber]
  obtain ⟨hnil, hx⟩ | ⟨hne, negative, d, hx⟩ := doubleOf?_numericPrefix (Text.trim s.toList)
  · rw [hx]
    exact ⟨fun hne => absurd hnil hne, fun _ => ⟨rfl, rfl⟩⟩
  · rw [hx]
    exact ⟨fun _ => ⟨_, rfl, rfl⟩, fun hnil => absurd hnil hne⟩

end Automation
