import Automation.Text.Blank

/-!
# Texts and their pieces

The pieces between the occurrences of a character are the text taken apart (`intercalate_split`), so a
text is known by its pieces.  None of them has the character in it (`of_mem_split`), and where it first
occurs a text comes apart in one way only (`append_cons_inj`).
-/

namespace Automation.Text

theorem split_eq_splitOn (sep : Char) (s : List Char) : split sep s = s.splitOn sep := by
  induction s with
  | nil => rfl
  | cons c s ih =>
    rw [split, ih, List.splitOn_cons_eq_if_modifyHead]
    by_cases hc : c = sep
    · simp [hc]
    · rw [if_neg hc, if_neg (by simpa using hc)]
      cases hs : s.splitOn sep with
      | nil => exact absurd hs (List.splitOn_ne_nil sep s)
      | cons piece rest => rfl

theorem intercalate_split (sep : Char) (s : List Char) : [sep].intercalate (split sep s) = s := by
  rw [split_eq_splitOn, List.intercalate_splitOn]

theorem of_mem_intercalate {sep : List Char} {items : List (List Char)} {c : Char}
    (h : c ∈ sep.intercalate items) : c ∈ sep ∨ ∃ item ∈ items, c ∈ item := by
  induction items with
  | nil => cases h
  | cons item items ih =>
    cases items with
    | nil =>
      rw [List.intercalate_singleton] at h
      exact .inr ⟨item, List.mem_singleton_self item, h⟩
    | cons item' items =>
      rw [List.intercalate_cons_cons, List.append_assoc, List.mem_append, List.mem_append] at h
      rcases h with h | h | h
      · exact .inr ⟨item, List.mem_cons_self .., h⟩
      · exact .inl h
      · exact (ih h).imp_right fun ⟨i, hi, hc⟩ => ⟨i, List.mem_cons_of_mem item hi, hc⟩

theorem of_mem_split {sep c : Char} {s piece : List Char} (h : piece ∈ split sep s)
    (hc : c ∈ piece) : c ∈ s ∧ c ≠ sep := by
  induction s generalizing piece with
  | nil =>
    obtain rfl := List.mem_singleton.1 h
    cases hc
  | cons d s ih =>
    have hlater : ∀ {piece}, piece ∈ split sep s → c ∈ piece → c ∈ d :: s ∧ c ≠ sep :=
      fun h hc => (ih h hc).imp_left (List.mem_cons_of_mem d)
    rw [split_eq_splitOn, List.splitOn_cons_eq_if_modifyHead, ← split_eq_splitOn] at h
    split at h
    · rcases List.mem_cons.1 h with rfl | h
      · cases hc
      · exact hlater h hc
    · next hd =>
      cases hsplit : split sep s with
      | nil => exact absurd hsplit (split_ne_nil sep s)
      | cons first rest =>
        rw [hsplit] at h hlater
        rcases List.mem_cons.1 h with rfl | h
        · rcases List.mem_cons.1 hc with rfl | hc
          · exact ⟨List.mem_cons_self .., by simpa using hd⟩
          · exact hlater (List.mem_cons_self ..) hc
        · exact hlater (List.mem_cons_of_mem _ h) hc

/-- What stands before the first occurrence of a character, and what behind it, is known from the whole. -/
theorem append_cons_inj {sep : Char} {a b x y : List Char} (ha : sep ∉ a) (hb : sep ∉ b)
    (h : a ++ sep :: x = b ++ sep :: y) : a = b ∧ x = y := by
  induction a generalizing b with
  | nil =>
    cases b with
    | nil => exact ⟨rfl, (List.cons.inj h).2⟩
    | cons d b => exact absurd (List.mem_cons.2 (.inl (List.cons.inj h).1)) hb
  | cons c a ih =>
    rw [List.mem_cons, not_or] at ha
    cases b with
    | nil => exact absurd (List.cons.inj h).1.symm ha.1
    | cons d b =>
      rw [List.mem_cons, not_or] at hb
      obtain ⟨rfl, hrest⟩ := List.cons.inj h
      obtain ⟨rfl, rfl⟩ := ih ha.2 hb.2 hrest
      exact ⟨rfl, rfl⟩

theorem contains_iff {needle s : List Char} : contains needle s = true ↔ needle <:+: s := by
  induction s with
  | nil => rw [contains, List.isEmpty_iff, List.infix_nil]
  | cons c s ih => rw [contains, Bool.or_eq_true, List.isPrefixOf_iff_prefix, ih, List.infix_cons_iff]

end Automation.Text
