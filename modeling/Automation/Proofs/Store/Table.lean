import Automation.Store.Basic

/-!
# Rows by id

Both tables of a store take a row in the same way: it goes in place of the one with its id, and keeps
something of that one, or else to the end (`putRow`).  So an id is looked up afterwards as before,
unless it is that of the row.
-/

namespace Automation

/-- A row with the moment of creation of another. -/
def FlowRow.since (old new : FlowRow) : FlowRow := { new with createdAt := old.createdAt }

theorem FlowRow.id_since (old new : FlowRow) : (FlowRow.since old new).id = new.id := rfl

def CredentialRow.since (old new : CredentialRow) : CredentialRow :=
  { new with createdAt := old.createdAt }

theorem CredentialRow.id_since (old new : CredentialRow) :
    (CredentialRow.since old new).id = new.id := rfl

namespace Store

/-- Puts a row in place of the one with its id, of which it keeps something, or at the end. -/
def putRow {ρ : Type} (idOf : ρ → String) (keep : ρ → ρ → ρ) (new : ρ) : List ρ → List ρ
  | [] => [new]
  | r :: rows =>
    if idOf r = idOf new then keep r new :: rows else r :: putRow idOf keep new rows

theorem putFlow_eq (new : FlowRow) (rows : List FlowRow) :
    putFlow new rows = putRow FlowRow.id FlowRow.since new rows := by
  induction rows with
  | nil => rfl
  | cons r rows ih => rw [putFlow, putRow, ih, FlowRow.since]

theorem putCredential_eq (new : CredentialRow) (rows : List CredentialRow) :
    putCredential new rows = putRow CredentialRow.id CredentialRow.since new rows := by
  induction rows with
  | nil => rfl
  | cons r rows ih => rw [putCredential, putRow, ih, CredentialRow.since]

section PutRow

variable {ρ : Type} {idOf : ρ → String} {keep : ρ → ρ → ρ}
  (hkeep : ∀ old new, idOf (keep old new) = idOf new) (new : ρ) (rows : List ρ)
include hkeep

/-- Looking up an id after a row has been put: the row itself, with what it keeps of the one in its
place, or what was there. -/
theorem find?_putRow (id : String) :
    (putRow idOf keep new rows).find? (fun r => idOf r = id) =
      if idOf new = id then
        some (((rows.find? fun r => idOf r = id).map fun old => keep old new).getD new)
      else rows.find? fun r => idOf r = id := by
  induction rows with
  | nil =>
    by_cases h : idOf new = id
    · rw [if_pos h, putRow, List.find?_cons_of_pos (by simp [h])]
      rfl
    · rw [if_neg h, putRow, List.find?_cons_of_neg (by simp [h])]
  | cons r rows ih =>
    by_cases hr : idOf r = idOf new
    · rw [putRow, if_pos hr]
      by_cases h : idOf new = id
      · rw [if_pos h, List.find?_cons_of_pos (by simp [hkeep, h]),
          List.find?_cons_of_pos (by simp [hr, h])]
        rfl
      · rw [if_neg h, List.find?_cons_of_neg (by simp [hkeep, h]),
          List.find?_cons_of_neg (by simp [hr, h])]
    · rw [putRow, if_neg hr]
      by_cases h : idOf r = id
      · have hne : idOf new ≠ id := fun hn => hr (h.trans hn.symm)
        rw [if_neg hne, List.find?_cons_of_pos (by simp [h]), List.find?_cons_of_pos (by simp [h])]
      · rw [List.find?_cons_of_neg (by simp [h]), List.find?_cons_of_neg (by simp [h]), ih]

theorem ids_putRow :
    (putRow idOf keep new rows).map idOf =
      if idOf new ∈ rows.map idOf then rows.map idOf else rows.map idOf ++ [idOf new] := by
  induction rows with
  | nil => rfl
  | cons r rows ih =>
    by_cases hr : idOf r = idOf new
    · rw [putRow, if_pos hr, if_pos (by simp [hr]), List.map_cons, List.map_cons, hkeep, hr]
    · rw [putRow, if_neg hr, List.map_cons, List.map_cons, ih]
      by_cases hmem : idOf new ∈ rows.map idOf
      · rw [if_pos hmem, if_pos (List.mem_cons_of_mem _ hmem)]
      · rw [if_neg hmem, if_neg (by simp only [List.mem_cons, not_or]; exact ⟨Ne.symm hr, hmem⟩),
          List.cons_append]

end PutRow

end Store

end Automation
