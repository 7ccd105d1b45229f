import Automation.Proofs.Sql.Shape

/-!
# Statements that read alike are alike

The text of a statement made of a table and columns says all that there is to say about it
(`Shape.eq_of_sql_eq`).  No name of a table or of a column can make one statement look like another,
since the end of a name is seen wherever it stands: names in quotes have no quotes in them, and neither a
point nor a quote follows one in a statement.

A text is `Legible` if this carries over to what it is part of: two items that look alike, whatever
follows them, are the same and are followed by the same.  It carries over from items to series of them
(`Legible.series_inj`), so from names to identifiers, from these to columns, settings and tests, and from
there to whole statements.
-/

namespace Automation

namespace Sql

/-! ## Legible texts -/

theorem intercalate_cons (sep t : List Char) (ts : List (List Char)) :
    sep.intercalate (t :: ts) = t ++ ts.flatMap (sep ++ ·) := by
  induction ts generalizing t with
  | nil => rw [List.intercalate_singleton, List.flatMap_nil, List.append_nil]
  | cons t' ts ih => rw [List.intercalate_cons_cons, ih, List.flatMap_cons, List.append_assoc,
      List.append_assoc]

/-- Texts of items that begin with a quote and can be told from what follows them, if that is as it may
be. -/
structure Legible {α : Type} (text : Nat → α → List Char) (good : α → Prop)
    (follows : List Char → Prop) : Prop where
  quoted : ∀ n a, ∃ s, text n a = '"' :: s
  inj : ∀ {n a b x y}, good a → good b → follows x → follows y →
    text n a ++ x = text n b ++ y → a = b ∧ x = y

section

variable {α : Type} {text : Nat → α → List Char} {count : α → Nat} {good : α → Prop}
  {follows : List Char → Prop} {sep x y : List Char}

theorem follows_flatMap (hsep : ∀ s, follows (sep ++ s)) (hx : follows x) (ts : List (List Char)) :
    follows (ts.flatMap (sep ++ ·) ++ x) := by
  cases ts with
  | nil => exact hx
  | cons t ts =>
    rw [List.flatMap_cons, List.append_assoc, List.append_assoc]
    exact hsep _

theorem Legible.flatMap_inj (h : Legible text good follows) (hsep : ∀ s, follows (sep ++ s))
    (hx : follows x) (hy : follows y) (hsx : ¬sep <+: x) (hsy : ¬sep <+: y) {as bs : List α}
    (has : ∀ a ∈ as, good a) (hbs : ∀ b ∈ bs, good b) {n : Nat}
    (heq : (series text count n as).flatMap (sep ++ ·) ++ x =
      (series text count n bs).flatMap (sep ++ ·) ++ y) : as = bs ∧ x = y := by
  induction as generalizing bs n with
  | nil =>
    cases bs with
    | nil => exact ⟨rfl, heq⟩
    | cons b bs =>
      rw [series, series, List.flatMap_cons, List.append_assoc, List.append_assoc] at heq
      exact absurd ⟨_, heq.symm⟩ hsx
  | cons a as ih =>
    cases bs with
    | nil =>
      rw [series, series, List.flatMap_cons, List.append_assoc, List.append_assoc] at heq
      exact absurd ⟨_, heq⟩ hsy
    | cons b bs =>
      obtain ⟨ha, has'⟩ := List.forall_mem_cons.1 has
      obtain ⟨hb, hbs'⟩ := List.forall_mem_cons.1 hbs
      simp only [series, List.flatMap_cons, List.append_assoc] at heq
      obtain ⟨rfl, hrest⟩ := h.inj ha hb (follows_flatMap hsep hx _) (follows_flatMap hsep hy _)
        (List.append_cancel_left heq)
      obtain ⟨rfl, hxy⟩ := ih has' hbs' hrest
      exact ⟨rfl, hxy⟩

theorem Legible.series_inj (h : Legible text good follows) (hquote : ∀ s, ¬follows ('"' :: s))
    (hsep : ∀ s, follows (sep ++ s)) (hx : follows x) (hy : follows y) (hsx : ¬sep <+: x)
    (hsy : ¬sep <+: y) {as bs : List α} (has : ∀ a ∈ as, good a) (hbs : ∀ b ∈ bs, good b) {n : Nat}
    (heq : sep.intercalate (series text count n as) ++ x =
      sep.intercalate (series text count n bs) ++ y) : as = bs ∧ x = y := by
  cases as with
  | nil =>
    cases bs with
    | nil => exact ⟨rfl, heq⟩
    | cons b bs =>
      obtain ⟨s, hs⟩ := h.quoted n b
      rw [series, series, intercalate_cons, hs] at heq
      rw [show x = '"' :: _ from heq] at hx
      exact absurd hx (hquote _)
  | cons a as =>
    cases bs with
    | nil =>
      obtain ⟨s, hs⟩ := h.quoted n a
      rw [series, series, intercalate_cons, hs] at heq
      rw [show y = '"' :: _ from heq.symm] at hy
      exact absurd hy (hquote _)
    | cons b bs =>
      obtain ⟨ha, has'⟩ := List.forall_mem_cons.1 has
      obtain ⟨hb, hbs'⟩ := List.forall_mem_cons.1 hbs
      rw [series, series, intercalate_cons, intercalate_cons, List.append_assoc,
        List.append_assoc] at heq
      obtain ⟨rfl, hrest⟩ :=
        h.inj ha hb (follows_flatMap hsep hx _) (follows_flatMap hsep hy _) heq
      obtain ⟨rfl, hxy⟩ := h.flatMap_inj hsep hx hy hsx hsy has' hbs' hrest
      exact ⟨rfl, hxy⟩

end

/-! ## Identifiers -/

/-- What may follow a part of a statement: nothing, a blank, a comma or a bracket. -/
def Breaks (s : List Char) : Prop := NextIs (fun c => c = ' ' ∨ c = ',' ∨ c = ')') s

/-- What may follow a list: nothing, a blank or a bracket. -/
def Closes (s : List Char) : Prop := NextIs (fun c => c = ' ' ∨ c = ')') s

theorem not_breaks_quote (s : List Char) : ¬Breaks ('"' :: s) := fun h =>
  absurd (nextIs_cons_iff.1 h) (by decide)

theorem Closes.breaks {s : List Char} (h : Closes s) : Breaks s :=
  NextIs.mono h fun _ hc => hc.imp_right Or.inr

theorem Closes.not_comma {s : List Char} (h : Closes s) : ¬[',', ' '] <+: s := by
  rintro ⟨t, rfl⟩
  exact absurd (nextIs_cons_iff.1 h) (by decide)

def quoteName (name : List Char) : List Char := '"' :: (name ++ ['"'])

theorem quote_not_mem_of_isName {name : List Char} (h : isName name = true) : '"' ∉ name := by
  intro hmem
  exact absurd (isNameChar_of_mem h hmem) (by decide)

theorem legible_quoteName :
    Legible (fun _ => quoteName) (fun name => '"' ∉ name) (fun x => ∀ s, x ≠ '"' :: s) where
  quoted _ name := ⟨name ++ ['"'], rfl⟩
  inj {_ a b x y} ha hb _ _ h := by
    have hbody : a ++ '"' :: x = b ++ '"' :: y := by
      simpa [quoteName] using h
    exact Text.append_cons_inj ha hb hbody

theorem exists_quoteIdentifier (ident : String) : ∃ s, quoteIdentifier ident = '"' :: s := by
  rw [quoteIdentifier]
  cases hsplit : Text.split '.' ident.toList with
  | nil => exact absurd hsplit (Text.split_ne_nil '.' ident.toList)
  | cons name names =>
    rw [List.map_cons, intercalate_cons]
    exact ⟨_, rfl⟩

theorem quoteIdentifier_inj {a b : String} {x y : List Char} (ha : isIdentifier a.toList = true)
    (hb : isIdentifier b.toList = true) (hx : Breaks x) (hy : Breaks y)
    (h : quoteIdentifier a ++ x = quoteIdentifier b ++ y) : a = b ∧ x = y := by
  have hquote : ∀ {z : List Char}, Breaks z → ∀ s, z ≠ '"' :: s := fun hz s heq =>
    absurd (nextIs_cons_iff.1 (heq ▸ hz)) (by decide)
  have hpoint : ∀ {z : List Char}, Breaks z → ¬['.'] <+: z := fun hz ⟨s, hs⟩ =>
    absurd (nextIs_cons_iff.1 (hs ▸ hz)) (by decide)
  have hnames : ∀ {ident : String}, isIdentifier ident.toList = true →
      ∀ name ∈ Text.split '.' ident.toList, '"' ∉ name := fun hident name hname =>
    quote_not_mem_of_isName (isName_of_mem_split hident hname)
  have hparts : ∀ ident : String, quoteIdentifier ident =
      ['.'].intercalate (series (fun _ => quoteName) (fun _ => 0) 0 (Text.split '.' ident.toList)) :=
    fun ident => by
      rw [← map_eq_series]
      rfl
  rw [hparts, hparts] at h
  have hsep : ∀ s t : List Char, ['.'] ++ s ≠ '"' :: t := fun s t heq =>
    absurd (List.cons.inj heq).1 (by decide)
  obtain ⟨hsplit, hxy⟩ := legible_quoteName.series_inj (fun s hs => hs s rfl) hsep (hquote hx)
    (hquote hy) (hpoint hx) (hpoint hy) (hnames ha) (hnames hb) h
  refine ⟨String.toList_inj.1 ?_, hxy⟩
  rw [← Text.intercalate_split '.' a.toList, hsplit, Text.intercalate_split]

/-! ## Parts of a statement -/

def NamedBy {α : Type} (name : α → String) (a : α) : Prop := isIdentifier (name a).toList = true

theorem legible_column : Legible (fun _ => quoteIdentifier) (NamedBy id) Breaks where
  quoted _ column := exists_quoteIdentifier column
  inj ha hb hx hy h := quoteIdentifier_inj ha hb hx hy h

theorem legible_settingText : Legible settingText (NamedBy id) Breaks where
  quoted n column := by
    obtain ⟨s, hs⟩ := exists_quoteIdentifier column
    rw [settingText, hs]
    exact ⟨_, rfl⟩
  inj {n a b x y} ha hb hx hy h := by
    have hequals : ∀ s, Breaks (" = ".toList ++ s) := fun s =>
      nextIs_of_head (c := ' ') (by decide) (.inl rfl)
    simp only [settingText, List.append_assoc] at h
    obtain ⟨rfl, hrest⟩ := quoteIdentifier_inj ha hb (hequals _) (hequals _) h
    exact ⟨rfl, List.append_cancel_left (List.append_cancel_left hrest)⟩

/-- Whether two texts differ at some place, or one ends where the other goes on with something that is no
break. -/
def apart : List Char → List Char → Bool
  | [], [] => false
  | [], c :: _ | c :: _, [] => !(c = ' ' ∨ c = ',' ∨ c = ')')
  | c :: s, d :: t => c ≠ d || apart s t

theorem append_ne_of_apart {s t x y : List Char} (h : apart s t = true) (hx : Breaks x)
    (hy : Breaks y) : s ++ x ≠ t ++ y := by
  induction s generalizing t with
  | nil =>
    cases t with
    | nil => cases h
    | cons c t =>
      rintro rfl
      exact absurd (nextIs_cons_iff.1 hx) (by simpa [apart] using h)
  | cons c s ih =>
    cases t with
    | nil =>
      intro heq
      rw [List.nil_append] at heq
      rw [← heq] at hy
      exact absurd (nextIs_cons_iff.1 hy) (by simpa [apart] using h)
    | cons d t =>
      intro heq
      obtain ⟨hcd, hrest⟩ := List.cons.inj heq
      rw [apart, hcd] at h
      exact ih (by simpa using h) hrest

theorem operator_inj {a b : SqlOperator} {x y : List Char} (hx : Breaks x) (hy : Breaks y)
    (h : a.sql.toList ++ x = b.sql.toList ++ y) : a = b := by
  refine Classical.byContradiction fun hne => ?_
  have hapart : apart a.sql.toList b.sql.toList = true := by
    revert hne
    cases a <;> cases b <;> decide
  exact append_ne_of_apart hapart hx hy h

theorem legible_testText : Legible (fun n => testText (n + 1)) (NamedBy Test.column) Breaks where
  quoted n t := by
    obtain ⟨s, hs⟩ := exists_quoteIdentifier t.column
    rw [testText, hs]
    exact ⟨_, rfl⟩
  inj {n a b x y} ha hb hx hy h := by
    have hvalue : ∀ {t : Test} {z : List Char}, Breaks z →
        Breaks ((if t.operator.takesValue then ' ' :: Template.placeholder (n + 1) else []) ++ z) := by
      intro t z hz
      split
      · exact nextIs_cons_iff.2 (.inl rfl)
      · exact hz
    simp only [testText, List.append_assoc, List.cons_append] at h
    obtain ⟨hcolumn, hrest⟩ := quoteIdentifier_inj ha hb (nextIs_cons_iff.2 (.inl rfl))
      (nextIs_cons_iff.2 (.inl rfl)) h
    have hoperator := operator_inj (hvalue hx) (hvalue hy) (List.cons.inj hrest).2
    obtain ⟨column, operator⟩ := a
    obtain ⟨column', operator'⟩ := b
    obtain rfl : column = column' := hcolumn
    obtain rfl : operator = operator' := hoperator
    exact ⟨rfl, List.append_cancel_left (List.append_cancel_left (List.cons.inj hrest).2)⟩

/-! ## Clauses -/

theorem closes_limitText (limit : Option Nat) : Closes (Shape.limitText limit) := by
  cases limit with
  | none => exact nextIs_nil
  | some n => exact nextIs_of_head (c := ' ') (by decide) (.inl rfl)

theorem limitText_inj {l m : Option Nat} (h : Shape.limitText l = Shape.limitText m) : l = m := by
  have hsome : ∀ n, Shape.limitText (some n) ≠ [] := fun n heq => by
    have hword := (List.append_eq_nil_iff.1 heq).1
    revert hword
    decide
  cases l with
  | none =>
    cases m with
    | none => rfl
    | some n => exact absurd h.symm (hsome n)
  | some n =>
    cases m with
    | none => exact absurd h (hsome n)
    | some n' =>
      have hdigits : Nat.toDigits 10 n = Nat.toDigits 10 n' := List.append_cancel_left h
      have hvalue : n = n' := calc
        n = Nat.ofDigitChars 10 (Nat.toDigits 10 n) 0 := Nat.ofDigitChars_ten_toDigits.symm
        _ = Nat.ofDigitChars 10 (Nat.toDigits 10 n') 0 := by rw [hdigits]
        _ = n' := Nat.ofDigitChars_ten_toDigits
      rw [hvalue]

theorem not_begins_limitText {c : Char} (hc : c ≠ 'L') {word : List Char} {limit : Option Nat} :
    ¬(' ' :: c :: word <+: Shape.limitText limit) := by
  rintro ⟨s, hs⟩
  cases limit with
  | none => cases hs
  | some n =>
    have hword : " LIMIT ".toList = ' ' :: 'L' :: "IMIT ".toList := by decide
    change _ = " LIMIT ".toList ++ Nat.toDigits 10 n at hs
    rw [hword] at hs
    simp only [List.cons_append, List.cons.injEq] at hs
    exact hc hs.2.1

theorem whereText_cons (n : Nat) (t : Test) (ts : List Test) : whereText n (t :: ts) =
    " WHERE ".toList ++ " AND ".toList.intercalate
      (series (fun n => testText (n + 1)) Test.count n (t :: ts)) := by
  rw [← testTexts_eq_series]
  rfl

theorem closes_whereText (n : Nat) (tests : List Test) : Closes (whereText n tests) := by
  cases tests with
  | nil => exact nextIs_nil
  | cons t tests =>
    rw [whereText_cons]
    exact nextIs_of_head (c := ' ') (by decide) (.inl rfl)

theorem whereText_inj {n : Nat} {ts us : List Test} {l m : Option Nat}
    (hts : ∀ t ∈ ts, NamedBy Test.column t) (hus : ∀ u ∈ us, NamedBy Test.column u)
    (h : whereText n ts ++ Shape.limitText l = whereText n us ++ Shape.limitText m) :
    ts = us ∧ l = m := by
  have hwhere : " WHERE ".toList = ' ' :: 'W' :: "HERE ".toList := by decide
  have hand : " AND ".toList = ' ' :: 'A' :: "ND ".toList := by decide
  cases ts with
  | nil =>
    cases us with
    | nil => exact ⟨rfl, limitText_inj h⟩
    | cons u us =>
      rw [whereText_cons, hwhere, List.append_assoc] at h
      exact absurd ⟨_, h.symm⟩ (not_begins_limitText (by decide))
  | cons t ts =>
    cases us with
    | nil =>
      rw [whereText_cons, hwhere, List.append_assoc] at h
      exact absurd ⟨_, h⟩ (not_begins_limitText (by decide))
    | cons u us =>
      rw [whereText_cons, whereText_cons, List.append_assoc, List.append_assoc] at h
      have hsep : ∀ s, Breaks (" AND ".toList ++ s) := fun s =>
        nextIs_of_head (c := ' ') (by decide) (.inl rfl)
      have hlimit : ∀ limit, ¬" AND ".toList <+: Shape.limitText limit := fun limit => by
        rw [hand]
        exact not_begins_limitText (by decide)
      obtain ⟨htests, hrest⟩ := legible_testText.series_inj not_breaks_quote hsep
        (closes_limitText l).breaks (closes_limitText m).breaks (hlimit l) (hlimit m) hts hus
        (List.append_cancel_left h)
      exact ⟨htests, limitText_inj hrest⟩

theorem commaList_inj {text : Nat → String → List Char} {count : String → Nat}
    (h : Legible text (NamedBy id) Breaks) {as bs : List String} {x y : List Char}
    (has : ∀ a ∈ as, isIdentifier a.toList = true) (hbs : ∀ b ∈ bs, isIdentifier b.toList = true)
    (hx : Closes x) (hy : Closes y) {n : Nat}
    (heq : commaList (series text count n as) ++ x = commaList (series text count n bs) ++ y) :
    as = bs ∧ x = y := by
  have hcomma : ∀ s, Breaks ([',', ' '] ++ s) := fun s => nextIs_cons_iff.2 (.inr (.inl rfl))
  exact h.series_inj not_breaks_quote hcomma hx.breaks hy.breaks hx.not_comma hy.not_comma has hbs heq

theorem fieldText_inj {as bs : List String} {x y : List Char}
    (has : ∀ a ∈ as, isIdentifier a.toList = true) (hbs : ∀ b ∈ bs, isIdentifier b.toList = true)
    (hx : Closes x) (hy : Closes y)
    (heq : Shape.fieldText as ++ x = Shape.fieldText bs ++ y) : as = bs ∧ x = y := by
  -- Columns begin with a quote, so that the sign for all of them is none.
  have hcolumns : ∀ (a : String) (as : List String) (s r : List Char),
      Shape.fieldText (a :: as) ++ s ≠ '*' :: r := by
    intro a as s r h
    obtain ⟨q, hq⟩ := exists_quoteIdentifier a
    rw [Shape.fieldText, if_neg nofun, commaList, List.map_cons, intercalate_cons, hq] at h
    exact absurd (List.cons.inj h).1 (by decide)
  cases as with
  | nil =>
    cases bs with
    | nil => exact ⟨rfl, (List.cons.inj heq).2⟩
    | cons b bs => exact absurd heq.symm (hcolumns b bs y x)
  | cons a as =>
    cases bs with
    | nil => exact absurd heq (hcolumns a as x y)
    | cons b bs =>
      rw [Shape.fieldText, Shape.fieldText, if_neg nofun, if_neg nofun, map_eq_series _ 0,
        map_eq_series _ 0] at heq
      exact commaList_inj legible_column has hbs hx hy heq

/-! ## Statements -/

namespace Shape

/-- The letter that a statement of an operation begins with, where all do with the same. -/
def initial : Operation → Option Char
  | .raw => none
  | .select => some 'S'
  | .insert => some 'I'
  | .update => some 'U'
  | .delete => some 'D'

theorem initial_inj {o o' : Operation} (h : initial o = initial o') : o = o' := by
  revert h
  cases o <;> cases o' <;> decide

theorem head?_sql {s : Shape} (h : s.operation ≠ .raw) : s.sql.head? = initial s.operation := by
  have hword : ∀ {word rest : List Char} {c : Char}, word.head? = some c →
      (word ++ rest).head? = some c := by
    intro word rest c hc
    rw [List.head?_append, hc]
    rfl
  cases s with
  | raw template => exact absurd rfl h
  | select columns table tests limit =>
    rw [sql_select]
    exact hword (c := 'S') (by decide)
  | insert table columns =>
    rw [sql_insert]
    exact hword (c := 'I') (by decide)
  | update table columns tests =>
    rw [sql_update]
    exact hword (c := 'U') (by decide)
  | delete table tests =>
    rw [sql_delete]
    exact hword (c := 'D') (by decide)

section

variable {table table' : String} {columns columns' : List String} {tests tests' : List Test}
  {limit limit' : Option Nat}

theorem select_inj (hs : (select columns table tests limit).Named)
    (hs' : (select columns' table' tests' limit').Named)
    (h : (select columns table tests limit).sql = (select columns' table' tests' limit').sql) :
    select columns table tests limit = select columns' table' tests' limit' := by
  obtain ⟨htable, hcolumns, htests⟩ := named_select_iff.1 hs
  obtain ⟨htable', hcolumns', htests'⟩ := named_select_iff.1 hs'
  have hfrom : ∀ rest, Closes (" FROM ".toList ++ rest) := fun rest =>
    nextIs_of_head (c := ' ') (by decide) (.inl rfl)
  have hclauses : ∀ tests limit, Breaks (whereText 0 tests ++ limitText limit) := fun tests limit =>
    Closes.breaks ((closes_whereText 0 tests).append (closes_limitText limit))
  rw [sql_select, sql_select] at h
  obtain ⟨hfields, hrest⟩ := fieldText_inj hcolumns hcolumns' (hfrom _) (hfrom _)
    (List.append_cancel_left h)
  obtain ⟨htables, hend⟩ := quoteIdentifier_inj htable htable' (hclauses _ _) (hclauses _ _)
    (List.append_cancel_left hrest)
  obtain ⟨rfl, rfl⟩ := whereText_inj htests htests' hend
  rw [hfields, htables]

theorem insert_inj (hs : (insert table columns).Named) (hs' : (insert table' columns').Named)
    (h : (insert table columns).sql = (insert table' columns').sql) :
    insert table columns = insert table' columns' := by
  obtain ⟨htable, hcolumns⟩ := named_insert_iff.1 hs
  obtain ⟨htable', hcolumns'⟩ := named_insert_iff.1 hs'
  have hopen : ∀ rest, Breaks (" (".toList ++ rest) := fun rest =>
    nextIs_of_head (c := ' ') (by decide) (.inl rfl)
  have hvalues : ∀ rest, Closes (") VALUES (".toList ++ rest) := fun rest =>
    nextIs_of_head (c := ')') (by decide) (.inr rfl)
  rw [sql_insert, sql_insert, map_eq_series _ 0, map_eq_series _ 0] at h
  obtain ⟨htables, hrest⟩ := quoteIdentifier_inj htable htable' (hopen _) (hopen _)
    (List.append_cancel_left h)
  obtain ⟨hlists, -⟩ := commaList_inj legible_column hcolumns hcolumns' (hvalues _) (hvalues _)
    (List.append_cancel_left hrest)
  rw [htables, hlists]

theorem update_inj (hs : (update table columns tests).Named)
    (hs' : (update table' columns' tests').Named)
    (h : (update table columns tests).sql = (update table' columns' tests').sql) :
    update table columns tests = update table' columns' tests' := by
  obtain ⟨htable, hcolumns, htests⟩ := named_update_iff.1 hs
  obtain ⟨htable', hcolumns', htests'⟩ := named_update_iff.1 hs'
  have hset : ∀ rest, Breaks (" SET ".toList ++ rest) := fun rest =>
    nextIs_of_head (c := ' ') (by decide) (.inl rfl)
  rw [sql_update, sql_update, settings_eq_series, settings_eq_series] at h
  obtain ⟨htables, hrest⟩ := quoteIdentifier_inj htable htable' (hset _) (hset _)
    (List.append_cancel_left h)
  obtain ⟨rfl, hend⟩ := commaList_inj legible_settingText hcolumns hcolumns' (closes_whereText _ _)
    (closes_whereText _ _) (List.append_cancel_left hrest)
  obtain ⟨htestLists, -⟩ :=
    whereText_inj (l := none) (m := none) htests htests' (congrArg (· ++ []) hend)
  rw [htables, htestLists]

theorem delete_inj (hs : (delete table tests).Named) (hs' : (delete table' tests').Named)
    (h : (delete table tests).sql = (delete table' tests').sql) :
    delete table tests = delete table' tests' := by
  obtain ⟨htable, htests⟩ := named_delete_iff.1 hs
  obtain ⟨htable', htests'⟩ := named_delete_iff.1 hs'
  rw [sql_delete, sql_delete] at h
  obtain ⟨htables, hend⟩ := quoteIdentifier_inj htable htable' (closes_whereText _ _).breaks
    (closes_whereText _ _).breaks (List.append_cancel_left h)
  obtain ⟨htestLists, -⟩ :=
    whereText_inj (l := none) (m := none) htests htests' (congrArg (· ++ []) hend)
  rw [htables, htestLists]

end

/-- Two statements made of tables and columns that have the same text are the same. -/
theorem eq_of_sql_eq {s s' : Shape} (hs : s.Named) (hs' : s'.Named) (hraw : s.operation ≠ .raw)
    (hraw' : s'.operation ≠ .raw) (h : s.sql = s'.sql) : s = s' := by
  have hoperation : s.operation = s'.operation := by
    refine initial_inj ?_
    rw [← head?_sql hraw, ← head?_sql hraw', h]
  cases s with
  | raw template => exact absurd rfl hraw
  | select columns table tests limit =>
    cases s' with
    | select columns' table' tests' limit' => exact select_inj hs hs' h
    | _ => cases hoperation
  | insert table columns =>
    cases s' with
    | insert table' columns' => exact insert_inj hs hs' h
    | _ => cases hoperation
  | update table columns tests =>
    cases s' with
    | update table' columns' tests' => exact update_inj hs hs' h
    | _ => cases hoperation
  | delete table tests =>
    cases s' with
    | delete table' tests' => exact delete_inj hs hs' h
    | _ => cases hoperation

end Shape

end Sql

namespace QueryConfig

open Sql

/-- Of two statements made of tables and columns, whatever values are bound, the same text means the same
operation on the same table with the same columns, tests and limit. -/
theorem alike_of_sql_eq {c c' : QueryConfig} {scope scope' : Record} {s s' : Statement}
    (hraw : c.operation ≠ .raw) (hraw' : c'.operation ≠ .raw) (h : c.statement scope = .ok s)
    (h' : c'.statement scope' = .ok s') (hsql : s.sql = s'.sql) :
    c.operation = c'.operation ∧
      (∃ table, c.table? = some table ∧ c'.table? = some table) ∧
      (c.operation = .select → c.columns = c'.columns) ∧
      (c.operation = .insert ∨ c.operation = .update → c.values.keys = c'.values.keys) ∧
      (c.operation ≠ .insert → c.tests = c'.tests) ∧
      (c.operation = .select → c.limit.filter (0 < ·) = c'.limit.filter (0 < ·)) := by
  obtain ⟨shape, hshape, htext, -⟩ := exists_of_statement h
  obtain ⟨shape', hshape', htext', -⟩ := exists_of_statement h'
  have hoperation := operation_of_shape hshape
  have hoperation' := operation_of_shape hshape'
  obtain ⟨hnamed, hmade⟩ := exists_of_shape hshape
  obtain ⟨hnamed', hmade'⟩ := exists_of_shape hshape'
  obtain rfl : shape = shape' := by
    refine Shape.eq_of_sql_eq hnamed hnamed' (hoperation ▸ hraw) (hoperation' ▸ hraw') ?_
    rw [← htext, ← htext', hsql]
  rw [← hoperation'] at hmade'
  rw [← hoperation] at hmade hraw ⊢
  refine ⟨hoperation', ?_⟩
  cases shape with
  | raw template => exact absurd rfl hraw
  | select columns table tests limit =>
    obtain ⟨table, htable, hmade⟩ := hmade
    obtain ⟨table', htable', hmade'⟩ := hmade'
    rw [hmade] at hmade'
    obtain ⟨hcolumns, rfl, htests, hlimit⟩ := Shape.select.inj hmade'
    exact ⟨⟨table, htable, htable'⟩, fun _ => hcolumns, nofun, fun _ => htests, fun _ => hlimit⟩
  | insert table columns =>
    obtain ⟨table, htable, hmade⟩ := hmade
    obtain ⟨table', htable', hmade'⟩ := hmade'
    rw [hmade] at hmade'
    obtain ⟨rfl, hkeys⟩ := Shape.insert.inj hmade'
    exact ⟨⟨table, htable, htable'⟩, nofun, fun _ => hkeys, fun hne => absurd rfl hne, nofun⟩
  | update table columns tests =>
    obtain ⟨table, htable, hmade⟩ := hmade
    obtain ⟨table', htable', hmade'⟩ := hmade'
    rw [hmade] at hmade'
    obtain ⟨rfl, hkeys, htests⟩ := Shape.update.inj hmade'
    exact ⟨⟨table, htable, htable'⟩, nofun, fun _ => hkeys, fun _ => htests, nofun⟩
  | delete table tests =>
    obtain ⟨table, htable, hmade⟩ := hmade
    obtain ⟨table', htable', hmade'⟩ := hmade'
    rw [hmade] at hmade'
    obtain ⟨rfl, htests⟩ := Shape.delete.inj hmade'
    exact ⟨⟨table, htable, htable'⟩, nofun, fun h => (h.elim nofun nofun), fun _ => htests, nofun⟩

def adults : QueryConfig where
  credentialId := some "db"
  operation := .select
  table := some " main.users "
  query := none
  columns := ["id", "profile.name"]
  predicates := [⟨"left_at", .isNull, .null⟩, ⟨"age", .gte, .ofNat 18⟩]
  values := []
  limit := none

def seniors : QueryConfig :=
  { adults with
    table := some "main.users"
    predicates := [⟨"left_at", .isNull, .ofNat 1⟩, ⟨"age", .gte, .string "\x7b\x7bage\x7d\x7d"⟩]
    limit := some 0 }

theorem alike_adults_seniors :
    ∃ s s', adults.statement [] = .ok s ∧ seniors.statement [("age", .ofNat 65)] = .ok s' ∧
      s.params = [.ofNat 18] ∧ s'.params = [.ofNat 65] ∧ s.sql = s'.sql ∧
      adults.operation = seniors.operation ∧
      (∃ table, adults.table? = some table ∧ seniors.table? = some table) ∧
      adults.columns = seniors.columns ∧ adults.tests = seniors.tests ∧
      adults.limit.filter (0 < ·) = seniors.limit.filter (0 < ·) := by
  have hs : adults.statement [] = .ok _ := congrArg (Except.map _) (show adults.shape =
    .ok (.select ["id", "profile.name"] "main.users" [⟨"left_at", .isNull⟩, ⟨"age", .gte⟩] none) from
    rfl)
  have hs' : seniors.statement [("age", .ofNat 65)] = .ok _ :=
    congrArg (Except.map _) (show seniors.shape = .ok (.select ["id", "profile.name"] "main.users"
      [⟨"left_at", .isNull⟩, ⟨"age", .gte⟩] none) from rfl)
  obtain ⟨hoperation, htable, hcolumns, -, htests, hlimit⟩ :=
    alike_of_sql_eq (by decide) (by decide) hs hs' rfl
  exact ⟨_, _, hs, hs', rfl, rfl, rfl, hoperation, htable, hcolumns rfl, htests (by decide), hlimit rfl⟩

end QueryConfig

end Automation
