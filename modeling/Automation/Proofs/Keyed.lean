import Automation.Keyed

/-!
# Members kept by key

Putting members under their keys one after the other leaves the keys in strict order, whatever order
they come in.  So members that are kept by key are rebuilt from any list of them (`ofList_of_perm`):
the order in which a map happens to be written does not matter to what is read.
-/

namespace Automation.Keyed

variable {α : Type}

instance (r : Keyed α) : Decidable (SortedKeys r) :=
  inferInstanceAs (Decidable ((keys r).Pairwise (· < ·)))

theorem lt_of_not_lt_of_ne {k key : String} (hlt : ¬key < k) (hne : key ≠ k) : k < key :=
  Decidable.byContradiction fun hnot =>
    hne (String.le_antisymm (String.not_lt.1 hnot) (String.not_lt.1 hlt))

theorem mem_keys_insert {r : Keyed α} {key : String} {value : α} {k : String}
    (h : k ∈ keys (insert key value r)) : k = key ∨ k ∈ keys r := by
  induction r with
  | nil => exact .inl (List.mem_singleton.1 h)
  | cons m r ih =>
    obtain ⟨k', v⟩ := m
    rw [insert] at h
    split at h
    · rcases List.mem_cons.1 h with rfl | h
      · exact .inl rfl
      · exact .inr (List.mem_cons_of_mem _ h)
    · split at h
      · exact (List.mem_cons.1 h)
      · rcases List.mem_cons.1 h with rfl | h
        · exact .inr (List.mem_cons_self ..)
        · exact (ih h).imp_right (List.mem_cons_of_mem _)

theorem sortedKeys_nil : SortedKeys ([] : Keyed α) := List.Pairwise.nil

theorem SortedKeys.insert {r : Keyed α} (hr : SortedKeys r) (key : String) (value : α) :
    SortedKeys (insert key value r) := by
  induction r with
  | nil => exact List.pairwise_singleton _ key
  | cons m r ih =>
    obtain ⟨k, v⟩ := m
    obtain ⟨hhead, htail⟩ := List.pairwise_cons.1 hr
    rw [Keyed.insert]
    split
    case isTrue heq =>
      subst heq
      exact List.pairwise_cons.2 ⟨hhead, htail⟩
    case isFalse hne =>
      split
      case isTrue hlt =>
        refine List.pairwise_cons.2 ⟨fun k' hk' => ?_, hr⟩
        rcases List.mem_cons.1 hk' with rfl | hk'
        · exact hlt
        · exact String.lt_trans hlt (hhead k' hk')
      case isFalse hlt =>
        refine List.pairwise_cons.2 ⟨fun k' hk' => ?_, ih htail⟩
        rcases mem_keys_insert hk' with rfl | hk'
        · exact lt_of_not_lt_of_ne hlt hne
        · exact hhead k' hk'

theorem SortedKeys.overlay {base : Keyed α} (hbase : SortedKeys base) (top : Keyed α) :
    SortedKeys (overlay base top) := by
  induction top generalizing base with
  | nil => exact hbase
  | cons m top ih => exact ih (hbase.insert m.1 m.2)

theorem perm_insert {r : Keyed α} {key : String} (value : α) (h : key ∉ keys r) :
    (insert key value r).Perm ((key, value) :: r) := by
  induction r with
  | nil => exact .refl _
  | cons m r ih =>
    obtain ⟨k, v⟩ := m
    rw [keys, List.map_cons, List.mem_cons, not_or] at h
    rw [insert, if_neg h.1]
    split
    · exact .refl _
    · exact ((ih h.2).cons (k, v)).trans (.swap ..)

theorem perm_overlay {base top : Keyed α} (h : (keys (base ++ top)).Nodup) :
    (overlay base top).Perm (base ++ top) := by
  induction top generalizing base with
  | nil =>
    rw [List.append_nil]
    exact .refl _
  | cons m top ih =>
    obtain ⟨k, v⟩ := m
    have hkeys : (keys (base ++ (k, v) :: top)).Perm (k :: keys (base ++ top)) :=
      List.perm_middle.map Prod.fst
    obtain ⟨hnew, hrest⟩ := List.nodup_cons.1 (hkeys.nodup_iff.1 h)
    have hbase : k ∉ keys base := fun hk => by
      rw [keys, List.map_append, List.mem_append, not_or] at hnew
      exact hnew.1 hk
    have hinsert : (insert k v base ++ top).Perm ((k, v) :: (base ++ top)) :=
      (perm_insert v hbase).append_right top
    rw [overlay_cons]
    exact (ih ((hinsert.map Prod.fst).nodup_iff.2 (List.nodup_cons.2 ⟨hnew, hrest⟩))).trans
      (hinsert.trans List.perm_middle.symm)

/-- Members that are kept by key are rebuilt from a list of them in any order. -/
theorem ofList_of_perm {r members : Keyed α} (hr : SortedKeys r) (h : members.Perm r) :
    ofList members = r := by
  have hkeys : (keys r).Nodup := by
    refine List.Pairwise.imp (R := (· < ·)) (fun {a b} hlt heq => ?_) hr
    exact String.lt_irrefl b (heq ▸ hlt)
  have hnodup : (keys ([] ++ members)).Nodup := (h.map Prod.fst).nodup_iff.2 hkeys
  have hsorted : SortedKeys (overlay [] members) := sortedKeys_nil.overlay members
  have hasymm : ∀ a b : String × α, a ∈ overlay [] members → b ∈ r → a.1 < b.1 → b.1 < a.1 →
      a = b := fun _ _ _ _ hab hba => absurd hba (String.lt_asymm hab)
  -- A list in strict order is determined by what is in it.
  exact List.Perm.eq_of_pairwise hasymm (List.pairwise_map.1 hsorted) (List.pairwise_map.1 hr)
    ((perm_overlay hnodup).trans h)

theorem ofList_of_sorted {r : Keyed α} (hr : SortedKeys r) : ofList r = r :=
  ofList_of_perm hr (.refl r)

/-! ## Members -/

theorem mem_of_mem_insert {r : Keyed α} {m : String × α} {key : String} {value : α}
    (h : m ∈ insert key value r) :
    m = (key, value) ∨ m ∈ r := by
  induction r with
  | nil => exact .inl (List.mem_singleton.1 h)
  | cons m' r ih =>
    obtain ⟨k, v⟩ := m'
    rw [insert] at h
    split at h
    · exact (List.mem_cons.1 h).imp_right (List.mem_cons_of_mem _)
    · split at h
      · exact List.mem_cons.1 h
      · rcases List.mem_cons.1 h with rfl | h
        · exact .inr (List.mem_cons_self ..)
        · exact (ih h).imp_right (List.mem_cons_of_mem _)

theorem mem_of_mem_overlay {r top : Keyed α} {m : String × α} (h : m ∈ overlay r top) :
    m ∈ r ∨ m ∈ top := by
  induction top generalizing r with
  | nil => exact .inl h
  | cons m' top ih =>
    rcases ih h with h | h
    · rcases mem_of_mem_insert h with rfl | h
      · exact .inr (List.mem_cons_self ..)
      · exact .inl h
    · exact .inr (List.mem_cons_of_mem _ h)

theorem mem_of_mem_ofList {members : Keyed α} {m : String × α} (h : m ∈ ofList members) :
    m ∈ members :=
  (mem_of_mem_overlay h).resolve_left List.not_mem_nil

end Automation.Keyed
