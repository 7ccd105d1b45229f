import Automation.Proofs.Template.Tokens

/-!
# Strings that are one token

A string that is one token and nothing else should be bound as the token's value, with its type, and any
other string as its interpolation (`Binds`).  `bindValue` does not look for tokens to tell the two apart.
It takes the braces off and asks whether any are left, so it has its own notion of a token, which differs
in two ways: a path with an opening brace in it is not accepted, and an empty one is.

`binds_bindValue_iff` says that nothing else goes wrong.  Only for such a path is the value taken for
text or the text for a value, and it shows whenever the path stands for a value that is not that text.
-/

namespace Automation

theorem Text.dropSuffix?_eq_some_iff {suffix s r : List Char} :
    Text.dropSuffix? suffix s = some r ↔ s = r ++ suffix := by
  rw [Text.dropSuffix?, Option.map_eq_some_iff]
  constructor
  · rintro ⟨t, ht, rfl⟩
    have hreverse := Text.dropPrefix?_eq_some_iff.1 ht
    rw [← List.reverse_reverse s, hreverse, List.reverse_append, List.reverse_reverse]
  · rintro rfl
    exact ⟨r.reverse, Text.dropPrefix?_eq_some_iff.2 List.reverse_append, List.reverse_reverse r⟩

namespace Template

/-! ## Texts that are one token -/

/-- The cut of a text that is one token. -/
def Cut.only (path : List Char) : Cut := ⟨[([], path)], []⟩

theorem tokenText_injective {path path' : List Char} (h : tokenText path = tokenText path') :
    path = path' := by
  have hbody : path ++ ['}', '}'] = path' ++ ['}', '}'] := (List.cons.inj (List.cons.inj h).2).2
  exact List.append_cancel_right hbody

theorem cuts_only_iff {s path : List Char} :
    Cuts s (.only path) ↔ IsPath path ∧ s = tokenText path := by
  constructor
  · intro h
    have hs : tokenText path ++ [] ++ [] = s := h.fill_tokenText
    rw [List.append_nil, List.append_nil] at hs
    exact ⟨h.isPath (List.mem_singleton_self path), hs.symm⟩
  · rintro ⟨hpath, rfl⟩
    have hempty : Cuts [] ⟨[], []⟩ := cuts_ofPieces []
    have honly := hempty.token hpath
    rwa [List.append_nil] at honly

theorem enclosed?_eq_some_iff {s path : List Char} :
    enclosed? s = some path ↔ Text.trim s = tokenText path ∧ '{' ∉ path ∧ '}' ∉ path := by
  have hbraces : (!path.contains '{' && !path.contains '}') = true ↔ '{' ∉ path ∧ '}' ∉ path := by
    simp
  rw [enclosed?, Option.filter_eq_some_iff, hbraces, Option.bind_eq_some_iff]
  refine and_congr_left fun _ => ?_
  constructor
  · rintro ⟨rest, hbegin, hsuffix⟩
    rw [Text.dropPrefix?_eq_some_iff.1 hbegin, Text.dropSuffix?_eq_some_iff.1 hsuffix]
    rfl
  · intro h
    exact ⟨path ++ ['}', '}'], Text.dropPrefix?_eq_some_iff.2 h, Text.dropSuffix?_eq_some_iff.2 rfl⟩

/-! ## What is to be bound -/

/-- What a string is to be bound as: the value of the token that it is, blanks around it apart, if this
stands for one, and else its interpolation. -/
inductive Binds (scope : Record) (s : List Char) : Value → Prop where
  | value {path : List Char} {v : Value} : Cuts (Text.trim s) (.only path) →
      resolve scope path = some v → Binds scope s v
  | text : (∀ path v, Cuts (Text.trim s) (.only path) → resolve scope path ≠ some v) →
      Binds scope s (.ofText (interpolate scope s))

section

variable {scope : Record} {path : List Char}

theorem binds_of_token {s : List Char} (hs : Text.trim s = tokenText path) (hpath : IsPath path)
    (v : Value) :
    Binds scope s v ↔ v = (resolve scope path).getD (.ofText (interpolate scope s)) := by
  have honly : Cuts (Text.trim s) (.only path) := cuts_only_iff.2 ⟨hpath, hs⟩
  constructor
  · intro h
    cases h with
    | @value path' v hcuts hv =>
      obtain rfl := tokenText_injective (hs.symm.trans (cuts_only_iff.1 hcuts).2)
      rw [hv]
      rfl
    | text hnone =>
      rw [Option.eq_none_iff_forall_ne_some.2 fun v => hnone path v honly]
      rfl
  · rintro rfl
    cases hv : resolve scope path with
    | some v => exact .value honly hv
    | none =>
      refine .text fun path' v hcuts => ?_
      obtain rfl := tokenText_injective (hs.symm.trans (cuts_only_iff.1 hcuts).2)
      rw [hv]
      exact nofun

theorem binds_of_no_token {s : List Char} (h : ∀ path, IsPath path → Text.trim s ≠ tokenText path)
    (v : Value) : Binds scope s v ↔ v = .ofText (interpolate scope s) := by
  have hnone : ∀ path, ¬Cuts (Text.trim s) (.only path) := fun path hcuts =>
    h path (cuts_only_iff.1 hcuts).1 (cuts_only_iff.1 hcuts).2
  constructor
  · intro hbinds
    cases hbinds with
    | value hcuts _ => exact absurd hcuts (hnone _)
    | text _ => rfl
  · rintro rfl
    exact .text fun path _ hcuts => absurd hcuts (hnone path)

/-! ## What is bound -/

theorem bindValue_of_enclosed {s : String} (hs : Text.trim s.toList = tokenText path)
    (hopen : '{' ∉ path) (hclose : '}' ∉ path) :
    bindValue scope (.string s) =
      (resolve scope path).getD (.ofText (interpolate scope s.toList)) := by
  rw [bindValue, enclosed?_eq_some_iff.2 ⟨hs, hopen, hclose⟩, Option.bind_some]
  cases resolve scope path <;> rfl

theorem bindValue_of_not_enclosed {s : String}
    (h : ∀ path, Text.trim s.toList = tokenText path → '{' ∈ path ∨ '}' ∈ path) :
    bindValue scope (.string s) = .ofText (interpolate scope s.toList) := by
  have hnone : enclosed? s.toList = none := by
    refine Option.eq_none_iff_forall_ne_some.2 fun path hpath => ?_
    obtain ⟨hs, hopen, hclose⟩ := enclosed?_eq_some_iff.1 hpath
    rcases h path hs with hmem | hmem
    · exact hopen hmem
    · exact hclose hmem
  rw [bindValue, hnone]
  rfl

theorem bindValue_of_brace {s : String} (hs : Text.trim s.toList = tokenText path)
    (h : '{' ∈ path ∨ '}' ∈ path) :
    bindValue scope (.string s) = .ofText (interpolate scope s.toList) :=
  bindValue_of_not_enclosed fun path' hs' => by
    rwa [← tokenText_injective (hs.symm.trans hs')]

theorem getD_eq_self_iff {α : Type} {value? : Option α} {v : α} :
    value?.getD v = v ↔ ∀ w, value? = some w → w = v := by
  cases value? <;> simp

/-- The text between two pairs of braces is bound as it should be, unless it is empty or has an opening
brace and stands for a value that is not what the whole text reads like. -/
theorem binds_bindValue_of_token {s : String} (hs : Text.trim s.toList = tokenText path)
    (hclose : '}' ∉ path) :
    Binds scope s.toList (bindValue scope (.string s)) ↔
      (path = [] ∨ '{' ∈ path → ∀ v, resolve scope path = some v →
        v = .ofText (interpolate scope s.toList)) := by
  by_cases hempty : path = []
  · -- Nothing between the braces: no token, and yet its value is bound.
    have hnone : ∀ path', IsPath path' → Text.trim s.toList ≠ tokenText path' :=
      fun path' hpath' hs' => hpath'.1 ((tokenText_injective (hs.symm.trans hs')).symm.trans hempty)
    rw [binds_of_no_token hnone, bindValue_of_enclosed hs (hempty ▸ List.not_mem_nil) hclose,
      getD_eq_self_iff]
    exact ⟨fun h _ => h, fun h => h (.inl hempty)⟩
  · rw [binds_of_token hs ⟨hempty, hclose⟩]
    by_cases hopen : '{' ∈ path
    · -- A token, and yet text is bound.
      rw [bindValue_of_brace hs (.inl hopen), eq_comm, getD_eq_self_iff]
      exact ⟨fun h _ => h, fun h => h (.inr hopen)⟩
    · rw [bindValue_of_enclosed hs hopen hclose]
      exact iff_of_true rfl fun hodd => (hodd.elim hempty hopen).elim

end

/-- What is bound for a string is what should be, unless the string is two pairs of braces around
nothing, or around a path with an opening brace in it.  The first is bound as the value with the empty
name though it is no token, and the second as text though it is one. -/
theorem binds_bindValue_iff (scope : Record) (s : String) :
    (Binds scope s.toList (bindValue scope (.string s)) ↔
      ∀ path v, Text.trim s.toList = tokenText path → '}' ∉ path → path = [] ∨ '{' ∈ path →
        resolve scope path = some v → v = .ofText (interpolate scope s.toList)) ∧
    (Text.trim s.toList = tokenText [] → bindValue scope (.string s) =
      (resolve scope []).getD (.ofText (interpolate scope s.toList))) ∧
    ∀ path, Text.trim s.toList = tokenText path → '{' ∈ path →
      bindValue scope (.string s) = .ofText (interpolate scope s.toList) := by
  refine ⟨?_, fun hs => bindValue_of_enclosed hs List.not_mem_nil List.not_mem_nil,
    fun path hs hopen => bindValue_of_brace hs (.inl hopen)⟩
  by_cases htoken : ∃ path, Text.trim s.toList = tokenText path ∧ '}' ∉ path
  case neg =>
    have hnone : ∀ path, Text.trim s.toList = tokenText path → '}' ∈ path := fun path hs =>
      Classical.byContradiction fun hclose => htoken ⟨path, hs, hclose⟩
    rw [bindValue_of_not_enclosed fun path hs => .inr (hnone path hs),
      binds_of_no_token fun path hpath hs => hpath.2 (hnone path hs)]
    exact iff_of_true rfl fun path _ hs hclose => absurd (hnone path hs) hclose
  case pos =>
    obtain ⟨path, hs, hclose⟩ := htoken
    rw [binds_bindValue_of_token hs hclose]
    constructor
    · intro h path' v hs' _ hodd hv
      obtain rfl := tokenText_injective (hs.symm.trans hs')
      exact h hodd v hv
    · intro h hodd v hv
      exact h path v hs hclose hodd hv

/-- Two pairs of braces around nothing are no token, and the number with the empty name is bound for
them.  The braces around `a{b` are a token, and text is bound for it instead of the number. -/
theorem not_binds_bindValue :
    ¬Binds [("", .ofNat 5)] "\x7b\x7b\x7d\x7d".toList
        (bindValue [("", .ofNat 5)] (.string "\x7b\x7b\x7d\x7d")) ∧
      ¬Binds [("a\x7bb", .ofNat 5)] "\x7b\x7ba\x7bb\x7d\x7d".toList
        (bindValue [("a\x7bb", .ofNat 5)] (.string "\x7b\x7ba\x7bb\x7d\x7d")) := by
  constructor
  · have hs : Text.trim "\x7b\x7b\x7d\x7d".toList = tokenText [] := by decide
    have hnone : ∀ path, IsPath path → Text.trim "\x7b\x7b\x7d\x7d".toList ≠ tokenText path :=
      fun path hpath heq => hpath.1 (tokenText_injective (hs.symm.trans heq)).symm
    rw [binds_of_no_token hnone, bindValue_of_enclosed hs List.not_mem_nil List.not_mem_nil]
    exact nofun
  · have hs : Text.trim "\x7b\x7ba\x7bb\x7d\x7d".toList = tokenText ['a', '{', 'b'] := by decide
    have hpath : IsPath ['a', '{', 'b'] := ⟨by decide, by decide⟩
    rw [binds_of_token hs hpath, bindValue_of_brace hs (.inl (by decide))]
    exact nofun

end Template

end Automation
