import Automation.Text.Blank

/-!
# Trimming

A text with no blank at either end is left as it is, and one that starts with no blank keeps its first
character.
-/

namespace Automation.Text

variable {c : Char}

theorem not_blank_of_isDigit (hc : c.isDigit) : isBlank c = false := by
  simp only [Char.isDigit, Bool.and_eq_true, decide_eq_true_eq, UInt32.le_iff_toNat_le] at hc
  have hlow : 48 ≤ c.toNat := hc.1
  have hhigh : c.toNat ≤ 57 := hc.2
  simp [isBlank]
  omega

theorem trimStart_cons (hc : isBlank c = false) (rest : List Char) :
    trimStart (c :: rest) = c :: rest := by
  rw [trimStart, List.dropWhile_cons_of_neg (by simp [hc])]

theorem trimEnd_concat (hc : isBlank c = false) (s : List Char) : trimEnd (s ++ [c]) = s ++ [c] := by
  rw [trimEnd, List.reverse_append, List.reverse_singleton, List.singleton_append,
    List.dropWhile_cons_of_neg (by simp [hc]), List.reverse_cons, List.reverse_reverse]

theorem exists_trim_cons (hc : isBlank c = false) (s : List Char) : ∃ r, trim (c :: s) = c :: r := by
  rw [trim, trimStart_cons hc, trimEnd, List.reverse_cons, List.dropWhile_append]
  by_cases hblank : (s.reverse.dropWhile isBlank).isEmpty = true
  · rw [if_pos hblank, List.dropWhile_cons_of_neg (by simp [hc])]
    exact ⟨[], rfl⟩
  · rw [if_neg hblank, List.reverse_append]
    exact ⟨_, rfl⟩

end Automation.Text
