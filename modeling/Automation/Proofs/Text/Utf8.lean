import Automation.Text.Utf8

/-!
# UTF-8 read back

Reading the bytes of a text gives the text (`decode_encode`), whatever bytes follow
(`decode_append`).  Bytes below `0x80` stand for themselves: none of them is part of another character
(`mem_of_mem_encode`), so a place can be looked for among the bytes instead of among the characters.
-/

namespace Automation.Utf8

theorem encode_append (s t : List Char) : encode (s ++ t) = encode s ++ encode t :=
  List.flatMap_append

theorem encode_cons (c : Char) (s : List Char) :
    encode (c :: s) = String.utf8EncodeChar c ++ encode s :=
  List.flatMap_cons

/-! ## Reading one character -/

/-- A byte that goes on with a character, by the six bits that it holds. -/
def following (n : Nat) : UInt8 := UInt8.ofNat (n % 64 + 128)

theorem toNat_following (n : Nat) : (following n).toNat = n % 64 + 128 :=
  UInt8.toNat_ofNat_of_lt' (by show n % 64 + 128 < 256; omega)

theorem decodeAfter_last {bits low high n : Nat} (r : List UInt8) (hlow : low ≤ n % 64 + 128)
    (hhigh : n % 64 + 128 ≤ high) :
    decodeAfter ⟨bits, 1, low, high⟩ (following n :: r) =
      Char.ofNat (bits * 64 + n % 64) :: decode r := by
  have haccepts : Unfinished.accepts ⟨bits, 1, low, high⟩ (following n) = true := by
    simp [Unfinished.accepts, toNat_following, hlow, hhigh]
  rw [decodeAfter, if_pos haccepts]
  simp [Unfinished.push, toNat_following]

theorem decodeAfter_more {bits left low high n : Nat} (r : List UInt8)
    (hlow : low ≤ n % 64 + 128) (hhigh : n % 64 + 128 ≤ high) :
    decodeAfter ⟨bits, left + 2, low, high⟩ (following n :: r) =
      decodeAfter ⟨bits * 64 + n % 64, left + 1, 0x80, 0xBF⟩ r := by
  have haccepts : Unfinished.accepts ⟨bits, left + 2, low, high⟩ (following n) = true := by
    simp [Unfinished.accepts, toNat_following, hlow, hhigh]
  rw [decodeAfter, if_pos haccepts]
  simp [Unfinished.push, toNat_following]

theorem decode_of_whole {b : UInt8} {c : Char} (h : lead b = .whole c) (r : List UInt8) :
    decode (b :: r) = c :: decode r := by
  rw [decode, h]

theorem decode_of_more {b : UInt8} {u : Unfinished} (h : lead b = .more u) (r : List UInt8) :
    decode (b :: r) = decodeAfter u r := by
  rw [decode, h]

theorem lead_one {v : Nat} (h : v ≤ 0x7F) : lead (.ofNat v) = .whole (Char.ofNat v) := by
  have hv : (UInt8.ofNat v).toNat = v := UInt8.toNat_ofNat_of_lt' (by show v < 256; omega)
  simp only [lead, hv]
  rw [if_pos (by omega)]

theorem lead_two {n : Nat} (hlow : 2 ≤ n) (hhigh : n < 0x20) :
    lead (.ofNat (n % 0x20 + 0xC0)) = .more ⟨n, 1, 0x80, 0xBF⟩ := by
  have hb : (UInt8.ofNat (n % 0x20 + 0xC0)).toNat = n + 0xC0 := by
    rw [UInt8.toNat_ofNat_of_lt' (by show n % 0x20 + 0xC0 < 256; omega)]
    omega
  simp only [lead, hb]
  rw [if_neg (by omega), if_neg (by omega), if_pos (by omega), Nat.add_sub_cancel]

theorem lead_three {n : Nat} (h : n < 0x10) :
    lead (.ofNat (n % 0x10 + 0xE0)) =
      .more ⟨n, 2, if n = 0 then 0xA0 else 0x80, if n = 0xD then 0x9F else 0xBF⟩ := by
  have hb : (UInt8.ofNat (n % 0x10 + 0xE0)).toNat = n + 0xE0 := by
    rw [UInt8.toNat_ofNat_of_lt' (by show n % 0x10 + 0xE0 < 256; omega)]
    omega
  simp only [lead, hb]
  rw [if_neg (by omega), if_neg (by omega), if_neg (by omega), if_pos (by omega),
    Nat.add_sub_cancel]
  simp only [Nat.add_eq_right, show n + 0xE0 = 0xED ↔ n = 0xD by omega]

theorem lead_four {n : Nat} (h : n < 5) :
    lead (.ofNat (n % 8 + 0xF0)) =
      .more ⟨n, 3, if n = 0 then 0x90 else 0x80, if n = 4 then 0x8F else 0xBF⟩ := by
  have hb : (UInt8.ofNat (n % 8 + 0xF0)).toNat = n + 0xF0 := by
    rw [UInt8.toNat_ofNat_of_lt' (by show n % 8 + 0xF0 < 256; omega)]
    omega
  simp only [lead, hb]
  rw [if_neg (by omega), if_neg (by omega), if_neg (by omega), if_neg (by omega),
    if_pos (by omega), Nat.add_sub_cancel]
  simp only [Nat.add_eq_right, show n + 0xF0 = 0xF4 ↔ n = 4 by omega]

/-- The bytes of a character are read as the character. -/
theorem decode_append_char (c : Char) (r : List UInt8) :
    decode (String.utf8EncodeChar c ++ r) = c :: decode r := by
  obtain ⟨v, hv⟩ : ∃ v, v = c.val.toNat := ⟨_, rfl⟩
  have hc : Char.ofNat v = c := hv ▸ Char.ofNat_toNat c
  have hvalid : v < 0xD800 ∨ (0xDFFF < v ∧ v < 0x110000) := hv ▸ c.valid
  rw [String.utf8EncodeChar]
  simp only [← hv]
  split
  case isTrue h1 => exact (decode_of_whole (lead_one h1) r).trans (by rw [hc])
  split
  case isTrue h2 =>
    show decode (_ :: following v :: r) = _
    rw [decode_of_more (lead_two (by omega) (by omega)), decodeAfter_last r (by omega) (by omega),
      Nat.div_add_mod' v 64, hc]
  split
  case isTrue h3 =>
    show decode (_ :: following (v / 64) :: following v :: r) = _
    rw [decode_of_more (lead_three (by omega)),
      decodeAfter_more _ (by split <;> omega) (by split <;> omega),
      decodeAfter_last r (by omega) (by omega),
      show (v / 4096 * 64 + v / 64 % 64) * 64 + v % 64 = v by omega, hc]
  case isFalse h3 =>
    show decode (_ :: following (v / 4096) :: following (v / 64) :: following v :: r) = _
    rw [decode_of_more (lead_four (by omega)),
      decodeAfter_more _ (by split <;> omega) (by split <;> omega),
      decodeAfter_more _ (by omega) (by omega),
      decodeAfter_last r (by omega) (by omega),
      show ((v / 262144 * 64 + v / 4096 % 64) * 64 + v / 64 % 64) * 64 + v % 64 = v by omega, hc]

/-! ## Reading a text -/

/-- Text in front of other bytes is read as it was written. -/
theorem decode_append (s : List Char) (r : List UInt8) : decode (encode s ++ r) = s ++ decode r := by
  induction s with
  | nil => rfl
  | cons c s ih => rw [encode_cons, List.append_assoc, decode_append_char, ih, List.cons_append]

theorem decode_encode (s : List Char) : decode (encode s) = s := by
  have h := decode_append s []
  rwa [List.append_nil, decode, List.append_nil] at h

/-! ## Bytes that stand for themselves -/

/-- A byte below `0x80` is all of its character. -/
theorem toNat_of_mem_char {b : UInt8} {c : Char} (hb : b.toNat < 0x80)
    (h : b ∈ String.utf8EncodeChar c) : b.toNat = c.toNat := by
  obtain ⟨v, hv⟩ : ∃ v, v = c.val.toNat := ⟨_, rfl⟩
  have htoNat : ∀ {n : Nat}, n < 256 → (UInt8.ofNat n).toNat = n := fun hn =>
    UInt8.toNat_ofNat_of_lt' hn
  show b.toNat = c.val.toNat
  rw [String.utf8EncodeChar] at h
  simp only [← hv] at h ⊢
  split at h
  case isTrue h1 =>
    obtain rfl := List.mem_singleton.1 h
    exact htoNat (by omega)
  -- All bytes of a longer character are too great.
  case isFalse h1 =>
    have hgreat : 0x80 ≤ b.toNat := by
      split at h
      case isTrue =>
        simp only [List.mem_cons, List.not_mem_nil, or_false] at h
        rcases h with rfl | rfl <;> rw [htoNat (by omega)] <;> omega
      case isFalse =>
        split at h <;> simp only [List.mem_cons, List.not_mem_nil, or_false] at h
        case isTrue => rcases h with rfl | rfl | rfl <;> rw [htoNat (by omega)] <;> omega
        case isFalse => rcases h with rfl | rfl | rfl | rfl <;> rw [htoNat (by omega)] <;> omega
    omega

theorem mem_of_mem_encode {b : UInt8} {s : List Char} (hb : b.toNat < 0x80) (h : b ∈ encode s) :
    Char.ofNat b.toNat ∈ s := by
  obtain ⟨c, hc, hbc⟩ := List.mem_flatMap.1 h
  rw [toNat_of_mem_char hb hbc, Char.ofNat_toNat]
  exact hc

end Automation.Utf8
