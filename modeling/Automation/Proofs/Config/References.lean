import Automation.Config.File
import Automation.Proofs.Text.Split

/-!
# References to variables

A reference in a file of settings is a `$` and an opening brace, a name, and the next closing brace.
`Expands` says what is to come of a text: the references in it, found from the left, give way to the
values of their variables, and all else stays as it is, references to variables that are not set
included.

`expandVariables` reads what follows the opening brace as a name before it knows whether the brace is ever
closed.  In a text without an open end this makes no difference.  An open end is taken for a reference all
the same: its variable is put in, or else a closing brace is added that was not there.
`expands_expandVariables_iff` says that nothing else goes wrong.
-/

namespace Automation

/-! ## References -/

def referenceText (name : List Char) : List Char := '$' :: '{' :: (name ++ ['}'])

/-- What is to come of a text.  A reference ends at the first closing brace, and nothing that has been put
in is looked at again. -/
inductive Expands (env : String → Option String) : List Char → List Char → Prop where
  | nil : Expands env [] []
  | value {name s t : List Char} {value : String} : '}' ∉ name → env (.ofList name) = some value →
      Expands env s t → Expands env (referenceText name ++ s) (value.toList ++ t)
  | unset {name s t : List Char} : '}' ∉ name → env (.ofList name) = none →
      Expands env s t → Expands env (referenceText name ++ s) (referenceText name ++ t)
  | char {c : Char} {s t : List Char} : (∀ name, ¬referenceText name <+: c :: s) →
      Expands env s t → Expands env (c :: s) (c :: t)

/-- Whether every reference that is begun in a text is ended in it. -/
def Closed (s : List Char) : Prop := ∀ before tail, s = before ++ '$' :: '{' :: tail → '}' ∈ tail

theorem referenceText_append (name s : List Char) :
    referenceText name ++ s = '$' :: '{' :: (name ++ '}' :: s) := by
  show '$' :: '{' :: ((name ++ ['}']) ++ s) = _
  rw [List.append_assoc]
  rfl

theorem referenceText_append_inj {name name' s s' : List Char} (hname : '}' ∉ name)
    (hname' : '}' ∉ name') (h : referenceText name ++ s = referenceText name' ++ s') :
    name = name' ∧ s = s' := by
  rw [referenceText_append, referenceText_append] at h
  exact Text.append_cons_inj hname hname' (List.cons.inj (List.cons.inj h).2).2

theorem exists_referenceText {body : List Char} (h : '}' ∈ body) :
    ∃ name s, '}' ∉ name ∧ '$' :: '{' :: body = referenceText name ++ s := by
  obtain ⟨name, s, rfl, hname⟩ := List.eq_append_cons_of_mem h
  exact ⟨name, s, hname, (referenceText_append name s).symm⟩

theorem not_referenceText_prefix_of_not_begun {s name : List Char} (h : ¬['$', '{'] <+: s) :
    ¬referenceText name <+: s := fun hprefix =>
  h (List.IsPrefix.trans ⟨name ++ ['}'], rfl⟩ hprefix)

/-- What follows a text completes no beginning of a reference at its end. -/
theorem not_begun_append {c : Char} {s rest : List Char} (h : ¬['$', '{'] <+: c :: s)
    (hrest : rest.head? ≠ some '{') : ¬['$', '{'] <+: c :: (s ++ rest) := by
  rw [List.cons_prefix_cons] at h ⊢
  rintro ⟨hc, hbegun⟩
  cases s with
  | nil =>
    obtain ⟨r, rfl⟩ : ['{'] <+: rest := hbegun
    exact hrest rfl
  | cons d s =>
    obtain ⟨hd, -⟩ := List.cons_prefix_cons.1 hbegun
    exact h ⟨hc, List.cons_prefix_cons.2 ⟨hd, List.nil_prefix⟩⟩

theorem not_referenceText_prefix_of_not_mem {s name : List Char} (h : '}' ∉ s) :
    ¬referenceText name <+: s := by
  intro hbegins
  have hbrace : '}' ∈ referenceText name := by simp [referenceText]
  exact h (hbegins.subset hbrace)

/-! ## Closed texts -/

theorem closed_nil : Closed [] := by
  intro before tail h
  cases before <;> cases h

theorem closed_cons {c : Char} {s : List Char}
    (hbegun : ∀ tail, c :: s = '$' :: '{' :: tail → '}' ∈ tail) (h : Closed s) : Closed (c :: s) := by
  intro before tail heq
  cases before with
  | nil => exact hbegun tail heq
  | cons b before => exact h before tail (List.cons.inj heq).2

theorem Closed.of_append {t s : List Char} (h : Closed (t ++ s)) : Closed s := by
  rintro before tail rfl
  exact h (t ++ before) tail (List.append_assoc ..).symm

/-- A text is closed, or a closed text with an open end behind it. -/
theorem closed_or_open (s : List Char) :
    Closed s ∨ ∃ front tail, Closed front ∧ s = front ++ '$' :: '{' :: tail ∧ '}' ∉ tail := by
  induction s with
  | nil => exact .inl closed_nil
  | cons c s ih =>
    by_cases hopen : ∃ tail, c :: s = '$' :: '{' :: tail ∧ '}' ∉ tail
    · obtain ⟨tail, heq, htail⟩ := hopen
      exact .inr ⟨[], tail, closed_nil, heq, htail⟩
    · rcases ih with hs | ⟨front, tail, hfront, rfl, htail⟩
      · refine .inl (closed_cons (fun tail heq => ?_) hs)
        exact Classical.byContradiction fun htail => hopen ⟨tail, heq, htail⟩
      · refine .inr ⟨c :: front, tail, closed_cons (fun tail' heq => ?_) hfront, rfl, htail⟩
        -- Were it not closed in front, the end would be open from there.
        refine Classical.byContradiction fun htail' => hopen ⟨tail' ++ '$' :: '{' :: tail, ?_, ?_⟩
        · rw [← List.cons_append, heq]
          rfl
        · simp [htail, htail']

/-- Goes through a closed text as references are looked for in it. -/
theorem Closed.induction {motive : ∀ s, Closed s → Prop} (nil : motive [] closed_nil)
    (reference : ∀ name s (hs : Closed s) (h : Closed (referenceText name ++ s)), '}' ∉ name →
      motive s hs → motive (referenceText name ++ s) h)
    (char : ∀ c s (hs : Closed s) (h : Closed (c :: s)), ¬['$', '{'] <+: c :: s →
      motive s hs → motive (c :: s) h) {s : List Char} (h : Closed s) : motive s h := by
  induction hn : s.length using Nat.strongRecOn generalizing s with
  | ind n ih =>
    cases s with
    | nil => exact nil
    | cons c s =>
      by_cases hbegun : ['$', '{'] <+: c :: s
      · obtain ⟨body, hbody⟩ := hbegun
        obtain ⟨name, u, hname, heq⟩ := exists_referenceText (h [] body hbody.symm)
        obtain heq : c :: s = referenceText name ++ u := hbody.symm.trans heq
        have hlength : s.length + 1 = (referenceText name ++ u).length := congrArg List.length heq
        rw [referenceText_append] at hlength
        simp only [List.length_cons, List.length_append] at hlength hn
        have hu : Closed u := of_append (heq ▸ h)
        have hmotive := ih u.length (by omega) hu rfl
        revert h
        rw [heq]
        exact fun h => reference name u hu h hname hmotive
      · have hs : Closed s := of_append (t := [c]) h
        exact char c s hs h hbegun (ih s.length (by simp at hn; omega) hs rfl)

/-! ## What the expansion does -/

section

variable (env : String → Option String)

theorem expandFrom_name {body : List Char} (h : '}' ∉ body) (name s : List Char) :
    expandFrom env (some name) (body ++ s) = expandFrom env (some (body.reverse ++ name)) s := by
  induction body generalizing name with
  | nil => rfl
  | cons c body ih =>
    rw [List.mem_cons, not_or] at h
    rw [List.cons_append, expandFrom, ih h.2, List.reverse_cons, List.append_assoc]
    · rfl
    · exact fun hc => h.1 hc.symm

theorem expandVariables_reference {name : List Char} (h : '}' ∉ name) (s : List Char) :
    expandVariables env (referenceText name ++ s) = variableText env name ++ expandVariables env s := by
  rw [referenceText_append, expandVariables, expandFrom, expandFrom_name env h, expandFrom,
    List.append_nil, List.reverse_reverse]
  rfl

theorem expandVariables_open {tail : List Char} (h : '}' ∉ tail) :
    expandVariables env ('$' :: '{' :: tail) = variableText env tail := by
  have hname := expandFrom_name env h [] []
  rw [List.append_nil, List.append_nil, expandFrom, List.reverse_reverse] at hname
  rw [expandVariables, expandFrom, hname]

theorem expandVariables_char {c : Char} {s : List Char} (h : ¬['$', '{'] <+: c :: s) :
    expandVariables env (c :: s) = c :: expandVariables env s := by
  rw [expandVariables, expandFrom]
  · rfl
  · rintro s' rfl rfl
    exact h ⟨s', rfl⟩

theorem expandVariables_append {front rest : List Char} (h : Closed front)
    (hrest : rest.head? ≠ some '{') :
    expandVariables env (front ++ rest) = expandVariables env front ++ expandVariables env rest := by
  induction h using Closed.induction with
  | nil => rfl
  | reference name s _ _ hname ih =>
    rw [List.append_assoc, expandVariables_reference env hname, expandVariables_reference env hname, ih,
      List.append_assoc]
  | char c s _ _ hbegun ih =>
    rw [List.cons_append, expandVariables_char env (not_begun_append hbegun hrest),
      expandVariables_char env hbegun, ih, List.cons_append]

end

/-! ## What is to come of a text -/

section

variable {env : String → Option String}

theorem expands_reference_iff {name : List Char} (hname : '}' ∉ name) {s u : List Char} :
    Expands env (referenceText name ++ s) u ↔
      ∃ t, Expands env s t ∧ u = variableText env name ++ t := by
  have hprefix : referenceText name <+: referenceText name ++ s := List.prefix_append ..
  constructor
  · generalize hw : referenceText name ++ s = w at hprefix
    intro h
    cases h with
    | nil => cases hw
    | value hname' hvalue hs =>
      obtain ⟨rfl, rfl⟩ := referenceText_append_inj hname hname' hw
      exact ⟨_, hs, by rw [variableText, hvalue]⟩
    | unset hname' hunset hs =>
      obtain ⟨rfl, rfl⟩ := referenceText_append_inj hname hname' hw
      exact ⟨_, hs, by rw [variableText, hunset]; rfl⟩
    | char hnone _ => exact absurd hprefix (hnone name)
  · rintro ⟨t, hs, rfl⟩
    rw [variableText]
    cases hvalue : env (.ofList name) with
    | some value => exact .value hname hvalue hs
    | none => exact .unset hname hvalue hs

theorem expands_char_iff {c : Char} {s u : List Char}
    (hnone : ∀ name, ¬referenceText name <+: c :: s) :
    Expands env (c :: s) u ↔ ∃ t, Expands env s t ∧ u = c :: t := by
  constructor
  · generalize hw : c :: s = w at hnone
    intro h
    cases h with
    | nil => cases hw
    | value => exact absurd (List.prefix_append ..) (hnone _)
    | unset => exact absurd (List.prefix_append ..) (hnone _)
    | char _ hs =>
      obtain ⟨rfl, rfl⟩ := List.cons.inj hw
      exact ⟨_, hs, rfl⟩
  · rintro ⟨t, hs, rfl⟩
    exact .char hnone hs

/-- At most one text is to come of a text. -/
theorem Expands.unique {s t t' : List Char} (h : Expands env s t) (h' : Expands env s t') : t = t' := by
  induction h generalizing t' with
  | nil => cases h'; rfl
  | value hname hvalue _ ih =>
    obtain ⟨u, hu, rfl⟩ := (expands_reference_iff hname).1 h'
    rw [ih hu, variableText, hvalue]
  | unset hname hunset _ ih =>
    obtain ⟨u, hu, rfl⟩ := (expands_reference_iff hname).1 h'
    rw [ih hu, variableText, hunset]
    rfl
  | char hnone _ ih =>
    obtain ⟨u, hu, rfl⟩ := (expands_char_iff hnone).1 h'
    rw [ih hu]

/-- A closed text comes to its expansion, whatever follows it. -/
theorem Closed.expands_append {front rest t : List Char} (h : Closed front)
    (hrest : rest.head? ≠ some '{') (ht : Expands env rest t) :
    Expands env (front ++ rest) (expandVariables env front ++ t) := by
  induction h using Closed.induction with
  | nil => exact ht
  | reference name s _ _ hname ih =>
    rw [List.append_assoc, expandVariables_reference env hname, List.append_assoc]
    exact (expands_reference_iff hname).2 ⟨_, ih, rfl⟩
  | char c s _ _ hbegun ih =>
    rw [expandVariables_char env hbegun]
    exact .char (fun _ => not_referenceText_prefix_of_not_begun (not_begun_append hbegun hrest)) ih

theorem expands_self_of_not_mem {s : List Char} (h : '}' ∉ s) : Expands env s s := by
  induction s with
  | nil => exact .nil
  | cons c s ih =>
    refine .char (fun _ => not_referenceText_prefix_of_not_mem h) (ih fun hmem => h ?_)
    exact List.mem_cons_of_mem c hmem

/-- Nothing is to come of an open end but itself. -/
theorem Closed.expands_open {front tail : List Char} (h : Closed front) (htail : '}' ∉ tail) :
    Expands env (front ++ '$' :: '{' :: tail) (expandVariables env front ++ '$' :: '{' :: tail) :=
  h.expands_append (by simp) (expands_self_of_not_mem (by simp [htail]))

theorem Closed.expands {s : List Char} (h : Closed s) : Expands env s (expandVariables env s) := by
  have hs : Expands env (s ++ []) (expandVariables env s ++ []) := h.expands_append nofun .nil
  rwa [List.append_nil, List.append_nil] at hs

theorem exists_expands (env : String → Option String) (s : List Char) : ∃ t, Expands env s t := by
  rcases closed_or_open s with hs | ⟨front, tail, hfront, rfl, htail⟩
  · exact ⟨_, hs.expands⟩
  · exact ⟨_, hfront.expands_open htail⟩

/-- A text comes to itself if no variable that it refers to is set. -/
theorem Expands.eq_self {s t : List Char} (h : Expands env s t)
    (hunset : ∀ name, '}' ∉ name → referenceText name <:+: s → env (.ofList name) = none) :
    t = s := by
  induction h with
  | nil => rfl
  | value hname hvalue _ _ =>
    rw [hunset _ hname (List.prefix_append ..).isInfix] at hvalue
    cases hvalue
  | unset _ _ _ ih =>
    rw [ih fun name hname hs => hunset name hname (hs.trans (List.suffix_append ..).isInfix)]
  | char _ _ ih =>
    rw [ih fun name hname hs => hunset name hname (hs.trans (List.suffix_cons ..).isInfix)]

theorem variableText_eq_open_iff {tail : List Char} :
    variableText env tail = '$' :: '{' :: tail ↔
      env (.ofList tail) = some (.ofList ('$' :: '{' :: tail)) := by
  rw [variableText]
  cases env (.ofList tail) with
  | some value => simp [← String.toList_inj]
  | none => simp

end

/-- The expansion of a text is what is to come of it, unless the text has an open end.  This is taken for
a reference, so that it stays as it is only if a variable by chance has just that text for its value: the
value of any other variable is put in, and a closing brace is added where there is no variable. -/
theorem expands_expandVariables_iff (env : String → Option String) (s : List Char) :
    (Expands env s (expandVariables env s) ↔
      ∀ front tail, Closed front → s = front ++ '$' :: '{' :: tail → '}' ∉ tail →
        env (.ofList tail) = some (.ofList ('$' :: '{' :: tail))) ∧
    (∀ front tail, Closed front → s = front ++ '$' :: '{' :: tail → '}' ∉ tail →
      Expands env front (expandVariables env front) ∧
        expandVariables env s = expandVariables env front ++ variableText env tail) ∧
    (∃ t, ∀ t', Expands env s t' ↔ t' = t) ∧
    ((∀ name, '}' ∉ name → referenceText name <:+: s → env (.ofList name) = none) →
      Expands env s s) := by
  have hopen : ∀ front tail, Closed front → s = front ++ '$' :: '{' :: tail → '}' ∉ tail →
      expandVariables env s = expandVariables env front ++ variableText env tail := by
    rintro front tail hfront rfl htail
    rw [expandVariables_append env hfront (by simp), expandVariables_open env htail]
  obtain ⟨t, ht⟩ := exists_expands env s
  refine ⟨⟨fun h front tail hfront heq htail => ?_, fun h => ?_⟩,
    fun front tail hfront heq htail => ⟨hfront.expands, hopen front tail hfront heq htail⟩,
    ⟨t, fun t' => ⟨fun h => h.unique ht, fun h => h ▸ ht⟩⟩, fun hunset => ?_⟩
  · have hend := hopen front tail hfront heq htail
    subst heq
    have hsame := h.unique (hfront.expands_open htail)
    rw [hend] at hsame
    exact variableText_eq_open_iff.1 (List.append_cancel_left hsame)
  · rcases closed_or_open s with hs | ⟨front, tail, hfront, rfl, htail⟩
    · exact hs.expands
    · rw [hopen front tail hfront rfl htail,
        variableText_eq_open_iff.2 (h front tail hfront rfl htail)]
      exact hfront.expands_open htail
  · rw [ht.eq_self hunset] at ht
    exact ht

/-- An open end is given a closing brace where there is no variable to put in. -/
theorem not_expands_open :
    expandVariables (fun _ => none) "$\x7bMODEL".toList = "$\x7bMODEL\x7d".toList ∧
      ¬Expands (fun _ => none) "$\x7bMODEL".toList
        (expandVariables (fun _ => none) "$\x7bMODEL".toList) := by
  have hself : Expands (fun _ => none) "$\x7bMODEL".toList "$\x7bMODEL".toList :=
    expands_self_of_not_mem (by decide)
  refine ⟨by decide, fun h => ?_⟩
  have hsame := h.unique hself
  revert hsame
  decide

end Automation
