import Automation.Proofs.Text.Split
import Automation.Template
import Mathlib.Data.List.TakeWhile

/-!
# Tokens, found from the left

What a token is can be said without an algorithm: two opening braces, a run of characters other than the
closing brace with at least one in it, and two closing braces.  `Cuts` says which occurrences count.  The
first token of a text is the leftmost occurrence, and the others are the tokens of what follows it.

`cuts_iff` says that every text is cut in one way only, the one that `pieces` finds.  Interpolation and
binding both fill that cut and change nothing else: the one puts in the values that tokens stand for, and
the other numbered placeholders, with the values listed apart (`tokens_exact`).
-/

namespace Automation

/-- The value that a path of keys leads to through nested objects. -/
inductive Record.Reaches : Record → List String → Value → Prop where
  | last {r : Record} {k : String} {v : Value} : r.get? k = some v → Reaches r [k] v
  | inner {r inner : Record} {k : String} {ks : List String} {v : Value} :
      r.get? k = some (.object inner) → Reaches inner ks v → Reaches r (k :: ks) v

theorem Value.asRecord?_eq_some_iff {v : Value} {r : Record} :
    v.asRecord? = some r ↔ v = .object r := by
  cases v <;> simp [Value.asRecord?]

theorem Record.follow_eq_some_iff {r : Record} {keys : List String} {v : Value} :
    r.follow keys = some v ↔ r.Reaches keys v := by
  constructor
  · intro h
    induction keys generalizing r with
    | nil => cases h
    | cons k ks ih =>
      cases ks with
      | nil => exact .last h
      | cons k' ks =>
        obtain ⟨w, hw, hfollow⟩ := Option.bind_eq_some_iff.1 h
        obtain ⟨inner, hinner, hfollow⟩ := Option.bind_eq_some_iff.1 hfollow
        rw [Value.asRecord?_eq_some_iff.1 hinner] at hw
        exact .inner hw (ih hfollow)
  · intro h
    induction h with
    | last hget => exact hget
    | @inner r inner k ks v hget hreaches ih =>
      cases ks with
      | nil => cases hreaches
      | cons k' ks =>
        show ((r.get? k).bind fun w => w.asRecord?.bind fun inner => inner.follow (k' :: ks)) = _
        rw [hget]
        exact ih

namespace Template

/-! ## Tokens -/

/-- What may stand between the braces of a token. -/
def IsPath (path : List Char) : Prop := path ≠ [] ∧ '}' ∉ path

theorem tokenText_append (path rest : List Char) :
    tokenText path ++ rest = '{' :: '{' :: (path ++ '}' :: '}' :: rest) := by
  show '{' :: '{' :: ((path ++ ['}', '}']) ++ rest) = _
  rw [List.append_assoc]
  rfl

theorem token?_tokenText {path : List Char} (h : IsPath path) (rest : List Char) :
    token? (tokenText path ++ rest) = some path := by
  obtain ⟨hne, hbrace⟩ := h
  have hpath : ∀ c ∈ path, decide (c ≠ '}') = true :=
    fun c hc => decide_eq_true fun heq => hbrace (heq ▸ hc)
  have htake : (path ++ '}' :: '}' :: rest).takeWhile (· ≠ '}') = path := by
    rw [List.takeWhile_append_of_pos hpath, List.takeWhile_cons_of_neg (by decide), List.append_nil]
  have hdrop : (path ++ '}' :: '}' :: rest).dropWhile (· ≠ '}') = '}' :: '}' :: rest := by
    rw [List.dropWhile_append_of_pos hpath, List.dropWhile_cons_of_neg (by decide)]
  rw [tokenText_append, token?, htake, hdrop]
  cases path with
  | nil => exact absurd rfl hne
  | cons c path => rfl

theorem of_token? {s path : List Char} (h : token? s = some path) :
    IsPath path ∧ ∃ rest, s = tokenText path ++ rest := by
  unfold token? at h
  split at h
  case h_1 s =>
    split at h
    case h_1 c path rest htake hdrop =>
      obtain rfl := Option.some.inj h
      have hs : s = (c :: path) ++ '}' :: '}' :: rest := by
        rw [← htake, ← hdrop, List.takeWhile_append_dropWhile]
      refine ⟨⟨List.cons_ne_nil c path, fun hmem => ?_⟩, rest, ?_⟩
      · rw [← htake] at hmem
        exact absurd (List.mem_takeWhile_imp hmem) (by decide)
      · rw [tokenText_append, ← hs]
    case h_2 => cases h
  case h_2 => cases h

theorem token?_eq_none_iff {s : List Char} :
    token? s = none ↔ ∀ path, IsPath path → ¬tokenText path <+: s := by
  constructor
  · rintro h path hpath ⟨rest, rfl⟩
    rw [token?_tokenText hpath] at h
    cases h
  · intro h
    cases htoken : token? s with
    | none => rfl
    | some path =>
      obtain ⟨hpath, rest, hs⟩ := of_token? htoken
      exact absurd ⟨rest, hs.symm⟩ (h path hpath)

/-! ## Pieces -/

theorem pieces_char {c : Char} {s : List Char} (h : token? (c :: s) = none) :
    pieces (c :: s) = .char c :: pieces s := by
  rw [pieces, piecesFrom, h]
  rfl

theorem pieces_token {path : List Char} (h : IsPath path) (rest : List Char) :
    pieces (tokenText path ++ rest) = .token path :: pieces rest := by
  have htoken := token?_tokenText h rest
  rw [tokenText_append] at htoken ⊢
  have hdrop : ('{' :: (path ++ '}' :: '}' :: rest)).drop (path.length + 3) = rest := by
    rw [List.drop_succ_cons, ← List.drop_drop, List.drop_left]
    rfl
  rw [pieces, piecesFrom, htoken]
  show _ :: piecesFrom (path.length + 3) _ = _
  rw [piecesFrom_eq_drop, hdrop]
  rfl

/-- Goes through a text as tokens are looked for in it. -/
theorem scan_induction {motive : List Char → Prop} (nil : motive [])
    (token : ∀ path rest, IsPath path → motive rest → motive (tokenText path ++ rest))
    (char : ∀ c s, token? (c :: s) = none → motive s → motive (c :: s)) (s : List Char) :
    motive s := by
  obtain ⟨n, hn⟩ : ∃ n, s.length ≤ n := ⟨_, Nat.le_refl _⟩
  induction n generalizing s with
  | zero =>
    rw [List.length_eq_zero_iff.1 (Nat.le_zero.1 hn)]
    exact nil
  | succ n ih =>
    cases s with
    | nil => exact nil
    | cons c s =>
      rw [List.length_cons] at hn
      cases htoken : token? (c :: s) with
      | none => exact char c s htoken (ih s (by omega))
      | some path =>
        obtain ⟨hpath, rest, hs⟩ := of_token? htoken
        have hlength : s.length + 1 = (tokenText path ++ rest).length := congrArg List.length hs
        rw [tokenText_append] at hlength
        simp only [List.length_cons, List.length_append] at hlength
        rw [hs]
        exact token path rest hpath (ih rest (by omega))

theorem pieces_append {before s : List Char}
    (h : ∀ t u, before = t ++ u → u ≠ [] → token? (u ++ s) = none) :
    pieces (before ++ s) = before.map .char ++ pieces s := by
  induction before with
  | nil => rfl
  | cons c before ih =>
    have hc : token? (c :: (before ++ s)) = none := h [] (c :: before) rfl (List.cons_ne_nil c before)
    rw [List.cons_append, pieces_char hc,
      ih fun t u heq hu => h (c :: t) u (congrArg (c :: ·) heq) hu]
    rfl

theorem pieces_of_no_token {s : List Char} (h : ∀ path, IsPath path → ¬tokenText path <:+: s) :
    pieces s = s.map .char := by
  have hpieces : pieces (s ++ []) = s.map .char ++ pieces [] := by
    refine pieces_append fun t u heq _ => token?_eq_none_iff.2 fun path hpath hbegin => ?_
    rw [List.append_nil] at hbegin
    exact h path hpath (hbegin.isInfix.trans ⟨t, [], by rw [heq, List.append_nil]⟩)
  rwa [List.append_nil, show pieces [] = [] from rfl, List.append_nil] at hpieces

/-! ## Cuts -/

/-- A text cut at its tokens: the path of each with the text in front of it, and the text behind the
last. -/
structure Cut where
  parts : List (List Char × List Char)
  tail : List Char

namespace Cut

def paths (cut : Cut) : List (List Char) := cut.parts.map Prod.snd

def outside (cut : Cut) : List (List Char) := cut.parts.map Prod.fst ++ [cut.tail]

/-- Parts with something in the place of each token.  The first has number `n`. -/
def fillFrom (put : Nat → List Char → List Char) : (n : Nat) → List (List Char × List Char) →
    List Char
  | _, [] => []
  | n, (before, path) :: r => before ++ (put n path ++ fillFrom put (n + 1) r)

/-- The text with something else in the place of each token, which is known by its number and its
path. -/
def fill (cut : Cut) (put : Nat → List Char → List Char) : List Char :=
  fillFrom put 1 cut.parts ++ cut.tail

def push (c : Char) : Cut → Cut
  | ⟨[], tail⟩ => ⟨[], c :: tail⟩
  | ⟨(before, path) :: r, tail⟩ => ⟨(c :: before, path) :: r, tail⟩

def ofPieces : List Piece → Cut
  | [] => ⟨[], []⟩
  | .char c :: r => (ofPieces r).push c
  | .token path :: r => ⟨([], path) :: (ofPieces r).parts, (ofPieces r).tail⟩

end Cut

/-- How tokens cut a text.  The first token is the leftmost occurrence of one, and the others are those
of the text behind it. -/
inductive Cuts : List Char → Cut → Prop where
  | tail {s : List Char} : (∀ path, IsPath path → ¬tokenText path <:+: s) → Cuts s ⟨[], s⟩
  | part {before path after : List Char} {cut : Cut} : IsPath path →
      (∀ before' path' after', IsPath path' →
        before ++ tokenText path ++ after = before' ++ tokenText path' ++ after' →
          before.length ≤ before'.length) →
      Cuts after cut → Cuts (before ++ tokenText path ++ after) ⟨(before, path) :: cut.parts, cut.tail⟩

namespace Cut

variable {put : Nat → List Char → List Char}

theorem fillFrom_push (n : Nat) (c : Char) (cut : Cut) :
    fillFrom put n (cut.push c).parts ++ (cut.push c).tail =
      c :: (fillFrom put n cut.parts ++ cut.tail) := by
  obtain ⟨parts, tail⟩ := cut
  cases parts <;> rfl

theorem paths_push (c : Char) (cut : Cut) : (cut.push c).paths = cut.paths := by
  obtain ⟨parts, tail⟩ := cut
  cases parts <;> rfl

theorem ofPieces_map_char_append (before : List Char) (path : List Char) (r : List Piece) :
    ofPieces (before.map .char ++ .token path :: r) =
      ⟨(before, path) :: (ofPieces r).parts, (ofPieces r).tail⟩ := by
  induction before with
  | nil => rfl
  | cons c before ih =>
    show (ofPieces (before.map .char ++ .token path :: r)).push c = _
    rw [ih]
    rfl

theorem ofPieces_map_char (s : List Char) : ofPieces (s.map .char) = ⟨[], s⟩ := by
  induction s with
  | nil => rfl
  | cons c s ih =>
    show (ofPieces (s.map .char)).push c = _
    rw [ih]
    rfl

end Cut

theorem Cuts.token {path rest : List Char} {cut : Cut} (hpath : IsPath path) (h : Cuts rest cut) :
    Cuts (tokenText path ++ rest) ⟨([], path) :: cut.parts, cut.tail⟩ :=
  @Cuts.part [] path rest cut hpath (fun _ _ _ _ _ => Nat.zero_le _) h

/-- A character that no token begins with belongs to the text in front of the next token. -/
theorem Cuts.push {c : Char} {s : List Char} {cut : Cut} (hc : token? (c :: s) = none)
    (h : Cuts s cut) : Cuts (c :: s) (cut.push c) := by
  have hfirst := token?_eq_none_iff.1 hc
  cases h with
  | tail hnone =>
    refine .tail fun path hpath hinfix => ?_
    rcases List.infix_cons_iff.1 hinfix with hbegin | hinfix
    · exact hfirst path hpath hbegin
    · exact hnone path hpath hinfix
  | @part before path after cut hpath hleftmost hafter =>
    refine @Cuts.part (c :: before) path after cut hpath (fun before' path' after' hpath' heq => ?_)
      hafter
    cases before' with
    | nil => exact absurd ⟨after', heq.symm⟩ (hfirst path' hpath')
    | cons d before' =>
      exact Nat.succ_le_succ (hleftmost before' path' after' hpath' (List.cons.inj heq).2)

theorem cuts_ofPieces (s : List Char) : Cuts s (.ofPieces (pieces s)) := by
  induction s using scan_induction with
  | nil =>
    refine .tail fun path _ hinfix => ?_
    cases List.infix_nil.1 hinfix
  | token path rest hpath ih =>
    rw [pieces_token hpath]
    exact ih.token hpath
  | char c s hnone ih =>
    rw [pieces_char hnone]
    exact ih.push hnone

/-- A text is cut in one way. -/
theorem cuts_iff {s : List Char} {cut : Cut} : Cuts s cut ↔ cut = .ofPieces (pieces s) := by
  constructor
  · intro h
    induction h with
    | tail hnone => rw [pieces_of_no_token hnone, Cut.ofPieces_map_char]
    | @part before path after cut hpath hleftmost hafter ih =>
      have hbefore : ∀ t u, before = t ++ u → u ≠ [] →
          token? (u ++ (tokenText path ++ after)) = none := by
        intro t u heq hu
        refine token?_eq_none_iff.2 fun path' hpath' ⟨after', hafter'⟩ => ?_
        -- A token in `u` would stand to the left of the first.
        have hle := hleftmost t path' after' hpath' (by
          rw [heq, List.append_assoc, List.append_assoc, List.append_assoc, hafter'])
        have hpos : 0 < u.length := List.length_pos_iff.2 hu
        rw [heq, List.length_append] at hle
        omega
      rw [List.append_assoc, pieces_append hbefore, pieces_token hpath,
        Cut.ofPieces_map_char_append, ih]
  · rintro rfl
    exact cuts_ofPieces s

theorem Cuts.isPath {s path : List Char} {cut : Cut} (h : Cuts s cut) (hmem : path ∈ cut.paths) :
    IsPath path := by
  induction h with
  | tail => cases hmem
  | part hpath _ _ ih =>
    rcases List.mem_cons.1 hmem with rfl | hmem
    · exact hpath
    · exact ih hmem

/-! ## Filling a cut -/

theorem flatMap_text (scope : Record) (n : Nat) (ps : List Piece) :
    ps.flatMap (Piece.text scope) =
      Cut.fillFrom (fun _ path => Piece.text scope (.token path)) n (Cut.ofPieces ps).parts ++
        (Cut.ofPieces ps).tail := by
  induction ps generalizing n with
  | nil => rfl
  | cons piece ps ih =>
    rw [List.flatMap_cons]
    cases piece with
    | char c =>
      rw [Cut.ofPieces, Cut.fillFrom_push, ih n]
      rfl
    | token path =>
      rw [ih (n + 1), ← List.append_assoc]
      rfl

theorem placeholdersFrom_eq (n : Nat) (ps : List Piece) :
    placeholdersFrom n ps =
      Cut.fillFrom (fun i _ => placeholder i) (n + 1) (Cut.ofPieces ps).parts ++
        (Cut.ofPieces ps).tail := by
  induction ps generalizing n with
  | nil => rfl
  | cons piece ps ih =>
    cases piece with
    | char c => rw [placeholdersFrom, Cut.ofPieces, Cut.fillFrom_push, ih]
    | token path =>
      rw [placeholdersFrom, ih, ← List.append_assoc]
      rfl

theorem paths_eq (s : List Char) : paths s = (Cut.ofPieces (pieces s)).paths := by
  rw [paths]
  induction pieces s with
  | nil => rfl
  | cons piece ps ih =>
    cases piece with
    | char c =>
      rw [Cut.ofPieces, Cut.paths_push]
      exact ih
    | token path => exact congrArg (path :: ·) ih

theorem interpolate_eq (scope : Record) (s : List Char) :
    interpolate scope s = (pieces s).flatMap (Piece.text scope) := by
  rw [interpolate]
  split
  · rfl
  · next hcontains =>
    -- Every token begins with two opening braces, so a text without them has none.
    have hnone : ∀ path, IsPath path → ¬tokenText path <:+: s := by
      intro path _ hinfix
      have hopen : ['{', '{'] <+: tokenText path := ⟨path ++ ['}', '}'], rfl⟩
      exact hcontains (Text.contains_iff.2 (hopen.isInfix.trans hinfix))
    rw [pieces_of_no_token hnone, List.flatMap_map]
    exact (List.flatMap_singleton' s).symm

theorem Cuts.fill_tokenText {s : List Char} {cut : Cut} (h : Cuts s cut) :
    cut.fill (fun _ => tokenText) = s := by
  rw [Cut.fill]
  generalize 1 = n
  induction h generalizing n with
  | tail => rfl
  | part _ _ _ ih =>
    rw [Cut.fillFrom, List.append_assoc, List.append_assoc, ih, ← List.append_assoc]

theorem resolve_eq_some_iff {scope : Record} {path : List Char} {v : Value} :
    resolve scope path = some v ↔
      scope.Reaches ((Text.split '.' (Text.trim path)).map String.ofList) v ∧ v ≠ .null := by
  rw [resolve, Option.filter_eq_some_iff, Record.lookup, Record.follow_eq_some_iff]
  cases v <;> simp [Value.isNull]

/-- A text is cut at its tokens in one way.  Interpolation puts into that cut the value of each token
that stands for one and leaves the rest as it is, and binding puts in numbered placeholders and lists the
values in order. -/
theorem tokens_exact (scope : Record) (s : List Char) :
    ∃ cut, (∀ cut', Cuts s cut' ↔ cut' = cut) ∧
      cut.fill (fun _ => tokenText) = s ∧
      (interpolate scope s = cut.fill fun _ path =>
        match resolve scope path with
        | some v => v.text
        | none => tokenText path) ∧
      (placeholders s = cut.fill fun i _ => placeholder i) ∧
      (bindings scope s = cut.paths.map fun path => (resolve scope path).getD .null) ∧
      ∀ path v, resolve scope path = some v ↔
        scope.Reaches ((Text.split '.' (Text.trim path)).map String.ofList) v ∧ v ≠ .null := by
  refine ⟨.ofPieces (pieces s), fun _ => cuts_iff, (cuts_ofPieces s).fill_tokenText, ?_, ?_, ?_,
    fun _ _ => resolve_eq_some_iff⟩
  · rw [interpolate_eq]
    exact flatMap_text scope 1 (pieces s)
  · exact placeholdersFrom_eq 0 (pieces s)
  · rw [bindings, paths_eq]

end Template

end Automation
