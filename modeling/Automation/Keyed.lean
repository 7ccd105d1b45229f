/-!
Members by key.

A `Keyed` list holds its members in strict order of their keys when it is built by `insert`, and then
each key at most once.  `get?_insert` is all there is to know about looking up what was inserted.
-/

namespace Automation

abbrev Keyed (α : Type) := List (String × α)

namespace Keyed

variable {α : Type}

def get? : Keyed α → String → Option α
  | [], _ => none
  | (k, v) :: r, key => if k = key then some v else get? r key

/-- Puts a value under a key, in place of what was there. -/
def insert (key : String) (value : α) : Keyed α → Keyed α
  | [] => [(key, value)]
  | (k, v) :: r =>
    if key = k then (key, value) :: r
    else if key < k then (key, value) :: (k, v) :: r
    else (k, v) :: insert key value r

/-- The first list overlaid by the members of the second, in their order. -/
def overlay (base top : Keyed α) : Keyed α :=
  top.foldl (fun r (k, v) => insert k v r) base

/-- The members of a list by key; of two under one key the later counts. -/
def ofList (members : List (String × α)) : Keyed α := overlay [] members

def keys (r : Keyed α) : List String := r.map Prod.fst

def SortedKeys (r : Keyed α) : Prop := (keys r).Pairwise (· < ·)

theorem get?_insert (r : Keyed α) (key : String) (value : α) (k : String) :
    get? (insert key value r) k = if key = k then some value else get? r k := by
  induction r with
  | nil => simp [insert, get?]
  | cons head r ih =>
    obtain ⟨k', v'⟩ := head
    by_cases h : key = k'
    · subst h
      by_cases hk : key = k <;> simp [insert, get?, hk]
    · by_cases hlt : key < k'
      · simp [insert, get?, h, hlt]
      · simp only [insert, h, hlt, if_false, get?, ih]
        by_cases hk' : k' = k
        · subst hk'
          simp [h]
        · simp [hk']

theorem overlay_cons (base : Keyed α) (k : String) (v : α) (top : Keyed α) :
    overlay base ((k, v) :: top) = overlay (insert k v base) top := rfl

end Keyed

end Automation
