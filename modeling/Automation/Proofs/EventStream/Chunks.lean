import Automation.EventStream.Parser

/-!
# Events do not depend on how the bytes are cut

A parser makes the same events of bytes that come in chunks as of the same bytes at once, and is left
with the same bytes (`feedAll_empty`).  Chunks may be empty, and may end inside a character or inside a
blank line.

What has to be shown is that bytes that come later never bring to light a blank line before the first
one seen so far (`takeBlock?_append`).  There are two blank lines of different lengths, so this is no
matter of course.  A blank line that is completed only by later bytes begins where the bytes seen so
far are a beginning of it, and no blank line begins further inside such a beginning
(`takeBlock?_prefix_eq_none`).
-/

namespace Automation.EventStream

def HasBlankLine (s : List UInt8) : Prop := ∃ e ∈ blankLines, e <:+: s

/-! ## The first blank line -/

theorem afterBlankLine?_eq_some_iff {s rest : List UInt8} :
    afterBlankLine? s = some rest ↔ ∃ e ∈ blankLines, s = e ++ rest := by
  constructor
  · intro h
    obtain ⟨e, he, rfl⟩ := Option.map_eq_some_iff.mp h
    have hpre := List.find?_some he
    rw [List.isPrefixOf_iff_prefix] at hpre
    exact ⟨e, List.mem_of_find?_eq_some he, (List.prefix_iff_eq_append.mp hpre).symm⟩
  · rintro ⟨e, he, rfl⟩
    -- Blank lines differ in their first byte, so the one that is there is the one found.
    simp only [blankLines, List.mem_cons, List.not_mem_nil, or_false] at he
    rcases he with rfl | rfl <;> rfl

theorem afterBlankLine?_eq_none_iff {s : List UInt8} :
    afterBlankLine? s = none ↔ ∀ e ∈ blankLines, ¬e <+: s := by
  simp only [afterBlankLine?, Option.map_eq_none_iff, List.find?_eq_none,
    List.isPrefixOf_iff_prefix]

theorem afterBlankLine?_append {s rest : List UInt8} (h : afterBlankLine? s = some rest)
    (t : List UInt8) : afterBlankLine? (s ++ t) = some (rest ++ t) := by
  obtain ⟨e, he, rfl⟩ := afterBlankLine?_eq_some_iff.mp h
  exact afterBlankLine?_eq_some_iff.mpr ⟨e, he, List.append_assoc ..⟩

/-- A beginning of a blank line that is not all of it has no blank line behind its first byte. -/
theorem takeBlock?_prefix_eq_none {e s : List UInt8} {b : UInt8} (he : e ∈ blankLines)
    (hs : b :: s <+: e) (hne : b :: s ≠ e) : takeBlock? s = none := by
  have hall : ∀ e ∈ blankLines, ∀ k < e.length, takeBlock? (e.take k).tail = none := by decide
  have hlt : (b :: s).length < e.length :=
    Nat.lt_of_le_of_ne hs.length_le fun hlen => hne (hs.eq_of_length hlen)
  have hnone := hall e he _ hlt
  rw [← List.prefix_iff_eq_take.mp hs] at hnone
  exact hnone

theorem takeBlock?_append {s block rest : List UInt8} (h : takeBlock? s = some (block, rest))
    (t : List UInt8) : takeBlock? (s ++ t) = some (block, rest ++ t) := by
  induction s generalizing block with
  | nil => cases h
  | cons b s ih =>
    rw [takeBlock?] at h
    rw [List.cons_append, takeBlock?, ← List.cons_append]
    cases hb : afterBlankLine? (b :: s) with
    | some r =>
      rw [hb] at h
      cases h
      rw [afterBlankLine?_append hb]
    | none =>
      rw [hb] at h
      obtain ⟨⟨block', rest'⟩, h', hpair⟩ := Option.map_eq_some_iff.mp h
      cases hpair
      have hnone : afterBlankLine? (b :: s ++ t) = none := by
        rw [afterBlankLine?_eq_none_iff] at hb ⊢
        intro e he hpre
        rcases List.prefix_or_prefix_of_prefix hpre (List.prefix_append (b :: s) t) with hin | hout
        · exact hb e he hin
        · have hne : b :: s ≠ e := fun heq => hb e he (heq ▸ List.prefix_refl _)
          rw [takeBlock?_prefix_eq_none he hout hne] at h'
          cases h'
      rw [hnone, ih h']
      rfl

theorem takeBlock?_eq_none_iff {s : List UInt8} : takeBlock? s = none ↔ ¬HasBlankLine s := by
  unfold HasBlankLine
  induction s with
  | nil => decide
  | cons b s ih =>
    have hcons : takeBlock? (b :: s) = none ↔
        afterBlankLine? (b :: s) = none ∧ takeBlock? s = none := by
      rw [takeBlock?]
      cases afterBlankLine? (b :: s) <;> simp
    rw [hcons, afterBlankLine?_eq_none_iff, ih]
    simp only [List.infix_cons_iff]
    constructor
    · rintro ⟨hpre, hin⟩ ⟨e, he, h | h⟩
      · exact hpre e he h
      · exact hin ⟨e, he, h⟩
    · intro h
      refine ⟨fun e he hpre => h ⟨e, he, Or.inl hpre⟩, ?_⟩
      rintro ⟨e, he, hin⟩
      exact h ⟨e, he, Or.inr hin⟩

/-! ## All blocks -/

theorem takeBlocks_of_none {s : List UInt8} (h : takeBlock? s = none) : takeBlocks s = ([], s) := by
  rw [takeBlocks]
  split
  · rfl
  · next h' =>
    rw [h] at h'
    cases h'

theorem takeBlocks_of_some {s block rest : List UInt8} (h : takeBlock? s = some (block, rest)) :
    takeBlocks s = (block :: (takeBlocks rest).1, (takeBlocks rest).2) := by
  rw [takeBlocks]
  split
  · next h' =>
    rw [h] at h'
    cases h'
  · next h' =>
    rw [h] at h'
    cases h'
    rfl

/-- What is left behind the last block has no blank line. -/
theorem takeBlock?_takeBlocks (s : List UInt8) : takeBlock? (takeBlocks s).2 = none := by
  fun_induction takeBlocks s with
  | case1 s h => exact h
  | case2 s block rest h _ blocks rest' hrest ih =>
    rw [hrest] at ih
    exact ih

/-- The blocks of bytes that come later are made of what is left behind the blocks so far. -/
theorem takeBlocks_append (s t : List UInt8) :
    takeBlocks (s ++ t) =
      ((takeBlocks s).1 ++ (takeBlocks ((takeBlocks s).2 ++ t)).1,
        (takeBlocks ((takeBlocks s).2 ++ t)).2) := by
  induction hlen : s.length using Nat.strongRecOn generalizing s with
  | ind n ih =>
    cases h : takeBlock? s with
    | none => rw [takeBlocks_of_none h, List.nil_append]
    | some found =>
      obtain ⟨block, rest⟩ := found
      have hlt : rest.length < n := hlen ▸ length_takeBlock?_lt h
      rw [takeBlocks_of_some h, takeBlocks_of_some (takeBlock?_append h t), ih _ hlt rest rfl]
      rfl

/-! ## Chunks -/

namespace Parser

theorem not_hasBlankLine_feed (p : Parser) (chunk : List UInt8) :
    ¬HasBlankLine (p.feed chunk).2.buffer :=
  takeBlock?_eq_none_iff.mp (takeBlock?_takeBlocks (p.buffer ++ chunk))

/-- Two chunks one after the other give the events of both at once. -/
theorem feed_append (p : Parser) (chunk chunk' : List UInt8) :
    p.feed (chunk ++ chunk') =
      ((p.feed chunk).1 ++ ((p.feed chunk).2.feed chunk').1, ((p.feed chunk).2.feed chunk').2) := by
  simp only [feed]
  rw [← List.append_assoc, takeBlocks_append, List.filterMap_append]

/-- A chunk without bytes completes nothing, unless a blank line is still waiting. -/
theorem feed_nil {p : Parser} (h : ¬HasBlankLine p.buffer) : p.feed [] = ([], p) := by
  simp only [feed]
  rw [List.append_nil, takeBlocks_of_none (takeBlock?_eq_none_iff.mpr h)]
  rfl

theorem feedAll_eq_feed {p : Parser} (h : ¬HasBlankLine p.buffer) (chunks : List (List UInt8)) :
    p.feedAll chunks = p.feed chunks.flatten := by
  induction chunks generalizing p with
  | nil => exact (feed_nil h).symm
  | cons chunk chunks ih =>
    rw [List.flatten_cons, feed_append, ← ih (not_hasBlankLine_feed p chunk)]
    rfl

/-- A new parser makes the same events of chunks as of their bytes at once, is left with the same
bytes, among which there is no blank line, and finishes alike. -/
theorem feedAll_empty (chunks : List (List UInt8)) :
    empty.feedAll chunks = empty.feed chunks.flatten ∧
      ¬HasBlankLine (empty.feedAll chunks).2.buffer ∧
      (empty.feedAll chunks).2.finish = (empty.feed chunks.flatten).2.finish := by
  have hempty : ¬HasBlankLine empty.buffer := by
    unfold HasBlankLine
    decide
  have heq := feedAll_eq_feed hempty chunks
  exact ⟨heq, heq ▸ not_hasBlankLine_feed _ _, congrArg (fun r => finish r.2) heq⟩

end Parser

end Automation.EventStream
