import Automation.Database.Evaluation
import Automation.Proofs.Number.Rounding
import Automation.Proofs.Run.Body

/-!
# Values that have been bound come back

What a value is bound as and what a cell is read as are two functions that know nothing of each other.
`ComesBack` says what one after the other is to give, and `comesBack_ofValue_iff` for which values it
does.

A cell holds an integer of 64 bits with a sign.  An integer beyond those is bound as the double
nearest to it, and so another number comes back.
-/

namespace Automation.Database

open Cell (greatestInt64)

/-- What a bound value is to be read as: a truth value as zero or one, a container as a text that is
parsed as the container, and all else as it was. -/
inductive ComesBack : Value → Value → Prop
  | null : ComesBack .null .null
  | bool (b : Bool) : ComesBack (.bool b) (.ofNat b.toNat)
  | number (n : Number) : ComesBack (.number n) (.number n)
  | string (s : String) : ComesBack (.string s) (.string s)
  | array {items : List Value} {text : String} (h : Json.parse text.toList = .ok (.array items)) :
    ComesBack (.array items) (.string text)
  | object {r : List (String × Value)} {text : String} (h : Json.parse text.toList = .ok (.object r)) :
    ComesBack (.object r) (.string text)

/-! ## Numbers -/

section Numbers

variable {i : Int} {hi : -9223372036854775808 ≤ i ∧ i < 18446744073709551616}

theorem toInt64?_eq_some (hle : i ≤ greatestInt64) : Number.toInt64? (.integer i hi) = some i := by
  unfold greatestInt64 at hle
  rw [Number.toInt64?, if_pos (by omega)]

theorem toInt64?_eq_none (hlt : greatestInt64 < i) : Number.toInt64? (.integer i hi) = none := by
  unfold greatestInt64 at hlt
  rw [Number.toInt64?, if_neg (by omega)]

theorem value_integer (hle : i ≤ greatestInt64) :
    (Cell.ofValue (.number (.integer i hi))).value = .number (.integer i hi) := by
  rw [Cell.ofValue, toInt64?_eq_some hle, Cell.value, Number.ofInt?, dif_pos hi]
  rfl

/-- An integer that needs all 64 bits comes back as the double nearest to it. -/
theorem value_large (hlt : greatestInt64 < i) :
    ∃ negative size, Binary.ofInt .double i = .finite negative size ∧
      (Cell.ofValue (.number (.integer i hi))).value = .number (.double negative size) := by
  have hfinite : (Binary.ofInt .double i).isFinite = true := Number.isFinite_toDouble (.integer i hi)
  have hcell : Cell.ofValue (.number (.integer i hi)) = .real (.ofInt .double i) := by
    rw [Cell.ofValue, toInt64?_eq_none hlt, Number.toDouble]
  rw [hcell]
  generalize Binary.ofInt .double i = x at hfinite
  cases x with
  | finite negative size => exact ⟨negative, size, rfl, rfl⟩
  | infinite negative => cases hfinite
  | nan => cases hfinite

theorem comesBack_number_iff {n : Number} {v : Value} : ComesBack (.number n) v ↔ v = .number n := by
  constructor
  · intro h
    cases h
    rfl
  · rintro rfl
    exact .number n

theorem not_comesBack_of_large (hlt : greatestInt64 < i) :
    ¬ComesBack (.number (.integer i hi)) (Cell.ofValue (.number (.integer i hi))).value := by
  obtain ⟨negative, size, -, hvalue⟩ := @value_large i hi hlt
  rw [comesBack_number_iff, hvalue]
  simp

end Numbers

/-! ## Values -/

/-- A value comes back exactly if it is no integer that needs all 64 bits.  In place of such an integer
the double nearest to it comes back. -/
theorem comesBack_ofValue_iff {v : Value} (hv : v.Ordered) (hdepth : v.nesting < Json.depthLimit) :
    (ComesBack v (Cell.ofValue v).value ↔
      ∀ i hi, v = .number (.integer i hi) → i ≤ greatestInt64) ∧
    ∀ i hi, v = .number (.integer i hi) → greatestInt64 < i →
      ∃ negative size, Binary.ofInt .double i = .finite negative size ∧
        (Cell.ofValue v).value = .number (.double negative size) := by
  constructor
  · constructor
    · rintro h i hi rfl
      exact Int.not_lt.1 fun hlt => not_comesBack_of_large hlt h
    · intro h
      cases v with
      | null => exact .null
      | bool b => cases b <;> exact .bool _
      | number n =>
        rw [comesBack_number_iff]
        cases n with
        | integer i hi => exact value_integer (h i hi rfl)
        | double negative size => rfl
      | string s =>
        rw [Cell.ofValue, Cell.value, Value.ofText, String.ofList_toList]
        exact .string s
      | array items => exact .array (by rw [String.toList_ofList, Json.parse_print hv hdepth])
      | object r => exact .object (by rw [String.toList_ofList, Json.parse_print hv hdepth])
  · rintro i hi rfl hlt
    exact value_large hlt

def greatestNumber : Number := .integer 18446744073709551615 (by decide)

/-- An order with a number that would not come back by itself. -/
def order : Value :=
  .object [("goods", .array [.string "tea", .string "\"milk\""]), ("id", .number greatestNumber)]

theorem comesBack_ofValue_iff_order :
    ∃ text, (Cell.ofValue order).value = .string text ∧ Json.parse text.toList = .ok order := by
  have hgoods : (Value.array [.string "tea", .string "\"milk\""]).Ordered := by
    refine .array fun v hv => ?_
    simp only [List.mem_cons, List.not_mem_nil, or_false] at hv
    rcases hv with rfl | rfl <;> exact .string _
  have hordered : order.Ordered := by
    refine .object (by decide) fun m hm => ?_
    simp only [List.mem_cons, List.not_mem_nil, or_false] at hm
    rcases hm with rfl | rfl
    · exact hgoods
    · exact .number _
  have hback : ComesBack order (Cell.ofValue order).value :=
    (comesBack_ofValue_iff hordered (by decide)).1.2 fun i hi h => by cases h
  rw [order] at hback ⊢
  generalize (Cell.ofValue _).value = v at hback
  cases hback with
  | object h => exact ⟨_, rfl, h⟩

/-- The number does not come back by itself. -/
theorem not_comesBack_greatestNumber :
    ¬ComesBack (.number greatestNumber) (Cell.ofValue (.number greatestNumber)).value :=
  not_comesBack_of_large (by decide)

end Automation.Database
