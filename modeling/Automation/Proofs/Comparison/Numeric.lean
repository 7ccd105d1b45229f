import Automation.Comparison

/-!
# Numeric beginnings

`IsNumeric` is the grammar of what reads as a number, and `IsLongest` says of a beginning of a text that no
longer one is of some kind.

The scanner goes from state to state and remembers the last digit that it has passed.  `Reads` is what can
be read on from a state up to a digit, with one rule for each step of the scanner, so the scanner stops
behind the longest beginning of that kind (`numericLength_scans`).  From the state at the start these are
the numeric texts that end with a digit (`reads_iff`), and these are what is taken of a text
(`numericPrefix_longest`).
-/

namespace Automation

/-! ## The grammar -/

def AllDigits (s : List Char) : Prop := ∀ c ∈ s, c.isDigit = true

def IsSign (s : List Char) : Prop := s = [] ∨ s = ['+'] ∨ s = ['-']

/-- Digits with at most one point among them, and at least one digit. -/
inductive IsMantissa : List Char → Prop
  | whole {a : List Char} (ha : AllDigits a) (hne : a ≠ []) : IsMantissa a
  | pointed {a b : List Char} (ha : AllDigits a) (hb : AllDigits b) (hne : a ≠ [] ∨ b ≠ []) :
      IsMantissa (a ++ '.' :: b)

/-- An `e` of either case, at most a sign, and at least one digit. -/
def IsExponent (s : List Char) : Prop :=
  ∃ e sign ds, (e = 'e' ∨ e = 'E') ∧ IsSign sign ∧ AllDigits ds ∧ ds ≠ [] ∧ s = e :: (sign ++ ds)

def IsUnsigned (s : List Char) : Prop :=
  ∃ mantissa exponent, IsMantissa mantissa ∧ (exponent = [] ∨ IsExponent exponent) ∧
    s = mantissa ++ exponent

/-- What reads as a number: at most a sign, digits with at most one point among them, and perhaps an
exponent. -/
def IsNumeric (s : List Char) : Prop :=
  ∃ sign number, IsSign sign ∧ IsUnsigned number ∧ s = sign ++ number

/-- The longest beginning of a text that is of some kind. -/
structure IsLongest (P : List Char → Prop) (s u : List Char) : Prop where
  begins : u <+: s
  holds : P u
  longest : ∀ v, v <+: s → P v → v.length ≤ u.length

theorem IsLongest.unique {P : List Char → Prop} {s u v : List Char} (hu : IsLongest P s u)
    (hv : IsLongest P s v) : u = v := by
  have hle := hv.longest u hu.begins hu.holds
  have hge := hu.longest v hv.begins hv.holds
  exact (List.prefix_of_prefix_length_le hu.begins hv.begins hle).eq_of_length (by omega)

/-! ## Reading on to a digit -/

def EndsInDigit (s : List Char) : Prop := ∃ r c, s = r ++ [c] ∧ c.isDigit = true

/-- What can be read on from a state of the scanner, up to a digit. -/
inductive Reads : (digit dot exp : Bool) → List Char → Prop
  | last {digit dot exp : Bool} {c : Char} (hc : c.isDigit = true) : Reads digit dot exp [c]
  | digit {digit dot exp : Bool} {c : Char} {s : List Char} (hc : c.isDigit = true)
      (h : Reads true dot exp s) : Reads digit dot exp (c :: s)
  | point {digit : Bool} {s : List Char} (h : Reads digit true false s) :
      Reads digit false false ('.' :: s)
  | exponent {dot : Bool} {e : Char} {s : List Char} (he : e = 'e' ∨ e = 'E')
      (h : Reads true dot true s) : Reads true dot false (e :: s)
  | signed {dot : Bool} {e sign : Char} {s : List Char} (he : e = 'e' ∨ e = 'E')
      (hsign : sign = '+' ∨ sign = '-') (h : Reads true dot true s) :
      Reads true dot false (e :: sign :: s)

section Steps

variable {digit dot exp : Bool} {c : Char} {s : List Char}

theorem not_reads_nil : ¬Reads digit dot exp [] := nofun

theorem ne_of_isDigit (h : c.isDigit = true) :
    c ≠ '.' ∧ c ≠ 'e' ∧ c ≠ 'E' ∧ c ≠ '+' ∧ c ≠ '-' := by
  refine ⟨?_, ?_, ?_, ?_, ?_⟩ <;>
  · rintro rfl
    simp at h

/-- All that the first character can be. -/
theorem Reads.head (h : Reads digit dot exp (c :: s)) :
    c.isDigit = true ∨ c = '.' ∧ dot = false ∧ exp = false ∨
      (c = 'e' ∨ c = 'E') ∧ digit = true ∧ exp = false := by
  cases h with
  | last hc => exact .inl hc
  | digit hc _ => exact .inl hc
  | point _ => exact .inr (.inl ⟨rfl, rfl, rfl⟩)
  | exponent he _ => exact .inr (.inr ⟨he, rfl, rfl⟩)
  | signed he _ _ => exact .inr (.inr ⟨he, rfl, rfl⟩)

theorem reads_digit_iff (hc : c.isDigit = true) :
    Reads digit dot exp (c :: s) ↔ s = [] ∨ Reads true dot exp s := by
  obtain ⟨hpoint, he, hE, -, -⟩ := ne_of_isDigit hc
  constructor
  · intro h
    cases h with
    | last _ => exact .inl rfl
    | digit _ h => exact .inr h
    | point _ => exact absurd rfl hpoint
    | exponent h _ => exact absurd h (by simp [he, hE])
    | signed h _ _ => exact absurd h (by simp [he, hE])
  · rintro (rfl | h)
    · exact .last hc
    · exact .digit hc h

theorem reads_point_iff : Reads digit false false ('.' :: s) ↔ Reads digit true false s := by
  constructor
  · intro h
    cases h with
    | last hc => exact absurd rfl (ne_of_isDigit hc).1
    | digit hc _ => exact absurd rfl (ne_of_isDigit hc).1
    | point h => exact h
    | exponent he _ => simp at he
    | signed he _ _ => simp at he
  · exact .point

/-- What stands behind an `e` is read from the state of an exponent, a sign in front of it apart. -/
theorem reads_exponent_iff (hc : c = 'e' ∨ c = 'E') :
    Reads true dot false (c :: s) ↔ Reads true dot true s ∨
      ∃ sign r, s = sign :: r ∧ (sign = '+' ∨ sign = '-') ∧ Reads true dot true r := by
  constructor
  · intro h
    cases h with
    | last h => exact absurd hc (by simp [ne_of_isDigit h])
    | digit h _ => exact absurd hc (by simp [ne_of_isDigit h])
    | point _ => simp at hc
    | exponent _ h => exact .inl h
    | signed _ hsign h => exact .inr ⟨_, _, rfl, hsign, h⟩
  · rintro (h | ⟨sign, r, rfl, hsign, h⟩)
    · exact .exponent hc h
    · exact .signed hc hsign h

theorem reads_unsigned_iff (hc : c = 'e' ∨ c = 'E')
    (hs : ∀ sign, s.head? = some sign → ¬(sign = '+' ∨ sign = '-')) :
    Reads true dot false (c :: s) ↔ Reads true dot true s := by
  rw [reads_exponent_iff hc, or_iff_left]
  rintro ⟨sign, r, rfl, hsign, -⟩
  exact hs sign rfl hsign

theorem reads_signed_iff (hc : c = 'e' ∨ c = 'E') {sign : Char} (hsign : sign = '+' ∨ sign = '-') :
    Reads true dot false (c :: sign :: s) ↔ Reads true dot true s := by
  rw [reads_exponent_iff hc]
  constructor
  · rintro (h | ⟨sign', r, heq, -, h⟩)
    · obtain hdigit | ⟨-, -, hexp⟩ | ⟨-, -, hexp⟩ := h.head
      · exact absurd hsign (by simp [ne_of_isDigit hdigit])
      · cases hexp
      · cases hexp
    · rwa [(List.cons.inj heq).2]
  · intro h
    exact .inr ⟨sign, s, rfl, hsign, h⟩

end Steps

/-! ## The scanner -/

/-- What a scanner comes to that has taken `taken` characters before `s`, with `best` of them up to the last
digit: it goes on to the end of the longest beginning of `s` that is of the kind `P`, if there is any. -/
def Scans (P : List Char → Prop) (taken best : Nat) (s : List Char) (n : Nat) : Prop :=
  (∃ u, IsLongest P s u ∧ n = taken + u.length) ∨ (∀ v, v <+: s → ¬P v) ∧ n = best

section Scans

variable {P Q : List Char → Prop} {taken best n : Nat} {c : Char} {s : List Char}

theorem scans_nil (hnil : ¬P []) : Scans P taken best [] best := by
  refine .inr ⟨fun v hv => ?_, rfl⟩
  rwa [List.prefix_nil.1 hv]

theorem scans_stop (hnil : ¬P []) (h : ∀ v, ¬P (c :: v)) : Scans P taken best (c :: s) best := by
  refine .inr ⟨fun v hv => ?_, rfl⟩
  obtain rfl | ⟨w, rfl, -⟩ := List.prefix_cons_iff.1 hv
  · exact hnil
  · exact h w

theorem Scans.cons (hnil : ¬P []) (h : ∀ v, v <+: s → (P (c :: v) ↔ Q v))
    (hs : Scans Q (taken + 1) best s n) : Scans P taken best (c :: s) n := by
  obtain ⟨u, hu, hn⟩ | ⟨hnone, hn⟩ := hs
  · refine .inl ⟨c :: u, ⟨?_, (h u hu.begins).2 hu.holds, fun v hv hP => ?_⟩, ?_⟩
    · exact List.prefix_cons_inj c |>.2 hu.begins
    · obtain rfl | ⟨w, rfl, hw⟩ := List.prefix_cons_iff.1 hv
      · exact absurd hP hnil
      · exact Nat.succ_le_succ (hu.longest w hw ((h w hw).1 hP))
    · rw [hn, List.length_cons]
      omega
  · refine .inr ⟨fun v hv hP => ?_, hn⟩
    obtain rfl | ⟨w, rfl, hw⟩ := List.prefix_cons_iff.1 hv
    · exact hnil hP
    · exact hnone w hw ((h w hw).1 hP)

/-- A digit may be the end, so from now on it is the best that there is. -/
theorem Scans.digit (hnil : ¬P []) (h : ∀ v, P (c :: v) ↔ v = [] ∨ Q v)
    (hs : Scans Q (taken + 1) (taken + 1) s n) : Scans P taken best (c :: s) n := by
  obtain ⟨u, hu, hn⟩ | ⟨hnone, hn⟩ := hs
  · refine .inl ⟨c :: u, ⟨?_, (h u).2 (.inr hu.holds), fun v hv hP => ?_⟩, ?_⟩
    · exact List.prefix_cons_inj c |>.2 hu.begins
    · obtain rfl | ⟨w, rfl, hw⟩ := List.prefix_cons_iff.1 hv
      · exact absurd hP hnil
      · obtain rfl | hQ := (h w).1 hP
        · exact Nat.succ_le_succ (Nat.zero_le _)
        · exact Nat.succ_le_succ (hu.longest w hw hQ)
    · rw [hn, List.length_cons]
      omega
  · refine .inl ⟨[c], ⟨?_, (h []).2 (.inl rfl), fun v hv hP => ?_⟩, hn⟩
    · exact List.prefix_cons_inj c |>.2 List.nil_prefix
    · obtain rfl | ⟨w, rfl, hw⟩ := List.prefix_cons_iff.1 hv
      · exact absurd hP hnil
      · obtain rfl | hQ := (h w).1 hP
        · exact Nat.le_refl _
        · exact absurd hQ (hnone w hw)

theorem Scans.congr (h : ∀ v, v <+: s → (P v ↔ Q v)) (hs : Scans Q taken best s n) :
    Scans P taken best s n := by
  obtain ⟨u, hu, hn⟩ | ⟨hnone, hn⟩ := hs
  · exact .inl ⟨u, ⟨hu.begins, (h u hu.begins).2 hu.holds, fun v hv hP =>
      hu.longest v hv ((h v hv).1 hP)⟩, hn⟩
  · exact .inr ⟨fun v hv hP => hnone v hv ((h v hv).1 hP), hn⟩

end Scans

/-- From every state the scanner goes on to the longest beginning that can be read from there. -/
theorem numericLength_scans (digit dot exp : Bool) (taken best : Nat) (s : List Char) :
    Scans (Reads digit dot exp) taken best s (numericLength digit dot exp taken best s) := by
  fun_induction numericLength digit dot exp taken best s with
  | case1 => exact scans_nil not_reads_nil
  | case2 digit dot exp taken best c s hc ih =>
    exact .digit not_reads_nil (fun v => reads_digit_iff hc) ih
  | case3 digit dot exp taken best c s hc hpoint ih =>
    obtain ⟨rfl, hdot, hexp⟩ := hpoint
    obtain rfl : dot = false := by simpa using hdot
    obtain rfl : exp = false := by simpa using hexp
    exact .cons not_reads_nil (fun v _ => reads_point_iff) ih
  | case4 digit dot exp taken best c hc hpoint he =>
    obtain ⟨he, rfl, hexp⟩ := he
    obtain rfl : exp = false := by simpa using hexp
    refine .cons not_reads_nil (fun v hv => reads_unsigned_iff he ?_) (scans_nil not_reads_nil)
    rw [List.prefix_nil.1 hv]
    exact nofun
  | case5 digit dot exp taken best c hc hpoint he sign r hsign ih =>
    obtain ⟨he, rfl, hexp⟩ := he
    obtain rfl : exp = false := by simpa using hexp
    have hnone : ¬Reads true dot false [c] := by
      rw [reads_unsigned_iff he fun _ hx => by cases hx]
      exact not_reads_nil
    exact .cons not_reads_nil (fun v _ => Iff.rfl)
      (.cons hnone (fun v _ => reads_signed_iff he hsign) ih)
  | case6 digit dot exp taken best c hc hpoint he sign r hsign ih =>
    obtain ⟨he, rfl, hexp⟩ := he
    obtain rfl : exp = false := by simpa using hexp
    refine .cons not_reads_nil (fun v hv => reads_unsigned_iff he fun x hx => ?_) ih
    obtain rfl | ⟨w, rfl, -⟩ := List.prefix_cons_iff.1 hv
    · cases hx
    · obtain rfl : sign = x := by simpa using hx
      exact hsign
  | case7 digit dot exp taken best c s hc hpoint he =>
    refine scans_stop not_reads_nil fun v h => ?_
    obtain hdigit | ⟨rfl, rfl, rfl⟩ | ⟨hc', rfl, rfl⟩ := h.head
    · exact hc hdigit
    · exact hpoint ⟨rfl, rfl, rfl⟩
    · exact he ⟨hc', rfl, rfl⟩

/-! ## What is read from the start -/

theorem Reads.endsInDigit {digit dot exp : Bool} {s : List Char} (h : Reads digit dot exp s) :
    EndsInDigit s := by
  induction h with
  | @last _ _ _ c hc => exact ⟨[], c, rfl, hc⟩
  | @digit _ _ _ c _ _ _ ih =>
    obtain ⟨r, x, rfl, hx⟩ := ih
    exact ⟨c :: r, x, rfl, hx⟩
  | point _ ih =>
    obtain ⟨r, x, rfl, hx⟩ := ih
    exact ⟨'.' :: r, x, rfl, hx⟩
  | @exponent _ e _ _ _ ih =>
    obtain ⟨r, x, rfl, hx⟩ := ih
    exact ⟨e :: r, x, rfl, hx⟩
  | @signed _ e sign _ _ _ _ ih =>
    obtain ⟨r, x, rfl, hx⟩ := ih
    exact ⟨e :: sign :: r, x, rfl, hx⟩

section Grammar

variable {digit dot exp : Bool} {s ds : List Char}

theorem Reads.digits (hds : AllDigits ds) (h : Reads (digit || !ds.isEmpty) dot exp s) :
    Reads digit dot exp (ds ++ s) := by
  induction ds generalizing digit with
  | nil => simpa using h
  | cons c ds ih =>
    obtain ⟨hc, hds⟩ := List.forall_mem_cons.1 hds
    exact .digit hc (ih hds (by simpa using h))

theorem reads_of_allDigits (hds : AllDigits ds) (hne : ds ≠ []) : Reads digit dot exp ds := by
  obtain ⟨r, c, rfl⟩ := (List.eq_nil_or_concat ds).resolve_left hne
  rw [List.concat_eq_append] at hds ⊢
  obtain ⟨hr, hc⟩ := List.forall_mem_append.1 hds
  exact .digits hr (.last (hc c (List.mem_singleton_self c)))

theorem allDigits_of_reads (h : Reads digit dot true s) : AllDigits s ∧ s ≠ [] := by
  induction s generalizing digit with
  | nil => exact absurd h not_reads_nil
  | cons c s ih =>
    obtain hc | ⟨-, -, hexp⟩ | ⟨-, -, hexp⟩ := h.head
    · refine ⟨List.forall_mem_cons.2 ⟨hc, ?_⟩, List.cons_ne_nil c s⟩
      obtain rfl | h := (reads_digit_iff hc).1 h
      · exact nofun
      · exact (ih h).1
    · cases hexp
    · cases hexp

theorem reads_of_isExponent (h : IsExponent s) : Reads true dot false s := by
  obtain ⟨e, sign, ds, he, hsign, hds, hne, rfl⟩ := h
  have hread : Reads true dot true ds := reads_of_allDigits hds hne
  obtain rfl | rfl | rfl := hsign
  · exact .exponent he hread
  · exact .signed he (.inl rfl) hread
  · exact .signed he (.inr rfl) hread

/-- What is read begins with digits.  It ends there, or goes on with an exponent, or with a point. -/
theorem Reads.split (h : Reads digit dot exp s) :
    ∃ ds r, s = ds ++ r ∧ AllDigits ds ∧
      (r = [] ∧ ds ≠ [] ∨ exp = false ∧ (digit = true ∨ ds ≠ []) ∧ IsExponent r ∨
        exp = false ∧ dot = false ∧ ∃ t, r = '.' :: t ∧ Reads (digit || !ds.isEmpty) true false t) := by
  induction h with
  | @last _ _ _ c hc =>
    exact ⟨[c], [], rfl, by simpa [AllDigits] using hc, .inl ⟨rfl, List.cons_ne_nil c []⟩⟩
  | @digit digit dot exp c s hc h ih =>
    obtain ⟨ds, r, rfl, hds, hr⟩ := ih
    refine ⟨c :: ds, r, rfl, List.forall_mem_cons.2 ⟨hc, hds⟩, ?_⟩
    obtain ⟨hr, -⟩ | ⟨hexp, -, hr⟩ | ⟨hexp, hdot, t, hr, ht⟩ := hr
    · exact .inl ⟨hr, List.cons_ne_nil c ds⟩
    · exact .inr (.inl ⟨hexp, .inr (List.cons_ne_nil c ds), hr⟩)
    · exact .inr (.inr ⟨hexp, hdot, t, hr, by simpa using ht⟩)
  | @point digit s h _ =>
    exact ⟨[], '.' :: s, rfl, nofun, .inr (.inr ⟨rfl, rfl, s, rfl, by simpa using h⟩)⟩
  | @exponent dot e s he h _ =>
    obtain ⟨hs, hne⟩ := allDigits_of_reads h
    exact ⟨[], e :: s, rfl, nofun, .inr (.inl ⟨rfl, .inl rfl, e, [], s, he, .inl rfl, hs, hne, rfl⟩)⟩
  | @signed dot e sign s he hsign h _ =>
    obtain ⟨hs, hne⟩ := allDigits_of_reads h
    have hsign : IsSign [sign] := .inr (hsign.imp (congrArg ([·])) (congrArg ([·])))
    exact ⟨[], e :: sign :: s, rfl, nofun,
      .inr (.inl ⟨rfl, .inl rfl, e, [sign], s, he, hsign, hs, hne, rfl⟩)⟩

theorem isUnsigned_of_reads (h : Reads false false false s) : IsUnsigned s := by
  obtain ⟨a, r, rfl, ha, ⟨rfl, hne⟩ | ⟨-, hne, hr⟩ | ⟨-, -, t, rfl, ht⟩⟩ := h.split
  · exact ⟨a, [], .whole ha hne, .inl rfl, rfl⟩
  · exact ⟨a, r, .whole ha (hne.resolve_left nofun), .inr hr, rfl⟩
  · obtain ⟨b, r, rfl, hb, ⟨rfl, hne⟩ | ⟨-, hne, hr⟩ | ⟨-, hdot, -⟩⟩ := ht.split
    · exact ⟨a ++ '.' :: b, [], .pointed ha hb (.inr hne), .inl rfl, by simp⟩
    · have hne : a ≠ [] ∨ b ≠ [] := hne.imp_left (by simp)
      exact ⟨a ++ '.' :: b, r, .pointed ha hb hne, .inr hr, by simp⟩
    · cases hdot

theorem not_endsInDigit_point : ¬EndsInDigit (s ++ ['.']) := by
  rintro ⟨r, c, heq, hc⟩
  obtain ⟨-, hcs⟩ := List.append_inj' heq rfl
  obtain rfl : '.' = c := by simpa using hcs
  cases hc

theorem reads_of_isUnsigned (h : IsUnsigned s) (hend : EndsInDigit s) : Reads false false false s := by
  obtain ⟨m, x, hm, hx, rfl⟩ := h
  cases hm with
  | whole hm hne =>
    obtain rfl | hx := hx
    · rw [List.append_nil]
      exact reads_of_allDigits hm hne
    · refine .digits hm ?_
      have hflag : (false || !m.isEmpty) = true := by simpa using hne
      rw [hflag]
      exact reads_of_isExponent hx
  | @pointed a b ha hb hne =>
    rw [List.append_assoc, List.cons_append] at hend ⊢
    refine .digits ha (.point ?_)
    obtain rfl | hx := hx
    · rw [List.append_nil] at hend ⊢
      refine reads_of_allDigits hb ?_
      rintro rfl
      exact not_endsInDigit_point hend
    · refine .digits hb ?_
      have hflag : (false || !a.isEmpty || !b.isEmpty) = true := by simpa using hne
      rw [hflag]
      exact reads_of_isExponent hx

/-- From the start the scanner reads the numeric texts without a sign that end with a digit. -/
theorem reads_iff : Reads false false false s ↔ IsUnsigned s ∧ EndsInDigit s :=
  ⟨fun h => ⟨isUnsigned_of_reads h, h.endsInDigit⟩, fun ⟨h, hend⟩ => reads_of_isUnsigned h hend⟩

end Grammar

/-! ## Signs and points -/

/-- What reads as a number and ends with a digit. -/
def IsClosed (s : List Char) : Prop := IsNumeric s ∧ EndsInDigit s

section Closed

variable {c : Char} {s : List Char}

theorem endsInDigit_cons_iff (hc : c.isDigit = false) : EndsInDigit (c :: s) ↔ EndsInDigit s := by
  constructor
  · rintro ⟨r, x, heq, hx⟩
    cases r with
    | nil =>
      obtain rfl : c = x := (List.cons.inj heq).1
      rw [hc] at hx
      cases hx
    | cons d r => exact ⟨r, x, (List.cons.inj heq).2, hx⟩
  · rintro ⟨r, x, rfl, hx⟩
    exact ⟨c :: r, x, rfl, hx⟩

theorem endsInDigit_append {r : List Char} (h : EndsInDigit s) : EndsInDigit (r ++ s) := by
  obtain ⟨t, x, rfl, hx⟩ := h
  exact ⟨r ++ t, x, by rw [List.append_assoc], hx⟩

theorem endsInDigit_of_allDigits (hs : AllDigits s) (hne : s ≠ []) : EndsInDigit s := by
  obtain ⟨r, x, rfl⟩ := (List.eq_nil_or_concat s).resolve_left hne
  rw [List.concat_eq_append] at hs ⊢
  exact ⟨r, x, rfl, hs x (List.mem_append_right r (List.mem_singleton_self x))⟩

theorem isDigit_of_sign (hc : c = '+' ∨ c = '-') : c.isDigit = false := by
  obtain rfl | rfl := hc <;> rfl

theorem isSign_singleton (hc : c = '+' ∨ c = '-') : IsSign [c] :=
  .inr (hc.imp (congrArg ([·])) (congrArg ([·])))

theorem isClosed_signed_iff (hc : c = '+' ∨ c = '-') :
    IsClosed (c :: s) ↔ Reads false false false s := by
  rw [reads_iff, IsClosed, endsInDigit_cons_iff (isDigit_of_sign hc)]
  refine and_congr_left fun hend => ⟨?_, fun h => ⟨[c], s, isSign_singleton hc, h, rfl⟩⟩
  rintro ⟨sign, number, hsign, hnumber, heq⟩
  obtain rfl | rfl | rfl := hsign
  · subst heq
    have hread := reads_of_isUnsigned hnumber ((endsInDigit_cons_iff (isDigit_of_sign hc)).2 hend)
    obtain hdigit | ⟨rfl, -, -⟩ | ⟨-, hdigit, -⟩ := hread.head
    · rw [isDigit_of_sign hc] at hdigit
      cases hdigit
    · simp at hc
    · cases hdigit
  · rwa [(List.cons.inj heq).2]
  · rwa [(List.cons.inj heq).2]

theorem isClosed_unsigned_iff (hs : ∀ c, s.head? = some c → ¬(c = '+' ∨ c = '-')) :
    IsClosed s ↔ Reads false false false s := by
  rw [reads_iff, IsClosed]
  refine and_congr_left fun _ => ⟨?_, fun h => ⟨[], s, .inl rfl, h, rfl⟩⟩
  rintro ⟨sign, number, hsign, hnumber, rfl⟩
  obtain rfl | rfl | rfl := hsign
  · exact hnumber
  · exact absurd (.inl rfl) (hs '+' rfl)
  · exact absurd (.inr rfl) (hs '-' rfl)

theorem not_isClosed_nil : ¬IsClosed [] := by
  rintro ⟨-, r, c, heq, -⟩
  simp at heq

/-- A numeric text that does not end with a digit ends with a point behind the digits. -/
theorem IsNumeric.closed_or_pointed (h : IsNumeric s) :
    IsClosed s ∨ ∃ p, s = p ++ ['.'] ∧ IsClosed p := by
  obtain ⟨sign, number, hsign, ⟨m, x, hm, hx, rfl⟩, rfl⟩ := h
  have hnumeric : IsNumeric (sign ++ (m ++ x)) := ⟨sign, m ++ x, hsign, ⟨m, x, hm, hx, rfl⟩, rfl⟩
  obtain rfl | hx := hx
  · rw [List.append_nil] at hnumeric ⊢
    cases hm with
    | whole hm hne => exact .inl ⟨hnumeric, endsInDigit_append (endsInDigit_of_allDigits hm hne)⟩
    | @pointed a b ha hb hne =>
      by_cases hempty : b = []
      · subst hempty
        have ha' : a ≠ [] := hne.resolve_right fun h => h rfl
        refine .inr ⟨sign ++ a, by simp, ⟨sign, a, hsign, ⟨a, [], .whole ha ha', .inl rfl, ?_⟩, rfl⟩, ?_⟩
        · rw [List.append_nil]
        · exact endsInDigit_append (endsInDigit_of_allDigits ha ha')
      · refine .inl ⟨hnumeric, endsInDigit_append ?_⟩
        rw [← List.singleton_append, ← List.append_assoc]
        exact endsInDigit_append (endsInDigit_of_allDigits hb hempty)
  · obtain ⟨e, esign, ds, -, -, hds, hne, rfl⟩ := hx
    refine .inl ⟨hnumeric, endsInDigit_append (endsInDigit_append ?_)⟩
    rw [← List.cons_append]
    exact endsInDigit_append (endsInDigit_of_allDigits hds hne)

end Closed

theorem Scans.take {P : List Char → Prop} {s : List Char} {n : Nat} (h : Scans P 0 0 s n) :
    IsLongest P s (s.take n) ∨ (∀ v, v <+: s → ¬P v) ∧ s.take n = [] := by
  obtain ⟨u, hu, rfl⟩ | ⟨hnone, rfl⟩ := h
  · rw [Nat.zero_add, ← List.prefix_iff_eq_take.1 hu.begins]
    exact .inl hu
  · exact .inr ⟨hnone, rfl⟩

/-- What is taken of a text is its longest beginning that reads as a number and ends with a digit. -/
theorem numericPrefix_longest (s : List Char) :
    IsLongest IsClosed s (numericPrefix s) ∨
      (∀ v, v <+: s → ¬IsClosed v) ∧ numericPrefix s = [] := by
  unfold numericPrefix
  split
  · next sign r =>
    split
    · next hsign =>
      refine Scans.take (.cons not_isClosed_nil (fun v _ => isClosed_signed_iff hsign) ?_)
      exact numericLength_scans false false false 1 0 r
    · next hsign =>
      refine Scans.take (.congr (fun v hv => isClosed_unsigned_iff fun c hc => ?_)
        (numericLength_scans false false false 0 0 (sign :: r)))
      obtain rfl | ⟨w, rfl, -⟩ := List.prefix_cons_iff.1 hv
      · cases hc
      · obtain rfl : sign = c := by simpa using hc
        exact hsign
  · exact .inr ⟨fun v hv => List.prefix_nil.1 hv ▸ not_isClosed_nil, rfl⟩

end Automation
