import Automation.Text.UpperTable

/-!
Upper case of texts.  On ASCII it is core's `Char.toUpper` (`upperOf_ascii`); beyond it a character
may have an upper case of several characters, such as `SS` for a sharp s.
-/

namespace Automation.Text

def upperOf (c : Char) : List Char :=
  if c.toNat < 0x80 then [c.toUpper]
  else
    match upperSequences.lookup c.toNat with
    | some units => units.map Char.ofNat
    | none =>
      match upperRuns.find? fun (first, last, step, _) =>
          first ≤ c.toNat && c.toNat ≤ last && (c.toNat - first) % step == 0 with
      | some (_, _, _, distance) => [.ofNat (c.toNat + distance).toNat]
      | none => [c]

theorem upperOf_ascii {c : Char} (h : c.toNat < 0x80) : upperOf c = [c.toUpper] := by
  simp [upperOf, h]

theorem upperOf_ne_nil (c : Char) : upperOf c ≠ [] := by
  have hsequences : ∀ u ∈ upperSequences, u.2 ≠ [] := by decide
  unfold upperOf
  split
  · exact List.cons_ne_nil _ _
  · split
    · next units hunits =>
      obtain ⟨before, after, heq, -⟩ := List.lookup_eq_some_iff.1 hunits
      exact fun h => hsequences _ (heq ▸ List.mem_append_right _ (List.mem_cons_self ..))
        (List.map_eq_nil_iff.1 h)
    · split <;> exact List.cons_ne_nil _ _

def upper (s : List Char) : List Char := s.flatMap upperOf

theorem upper_eq_nil_iff {s : List Char} : upper s = [] ↔ s = [] := by
  cases s with
  | nil => simp [upper]
  | cons c s => simp [upper, upperOf_ne_nil]

end Automation.Text
