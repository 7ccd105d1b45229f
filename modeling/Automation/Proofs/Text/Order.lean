import Automation.Proofs.Text.Utf8
import Mathlib.Data.List.Lex
import Mathlib.Data.String.Basic

/-!
# The order of texts is the order of their bytes

Texts are compared character by character, and what a file holds is compared byte by byte.  The two are
one order (`encode_lt_iff`): the first byte of a character says how many there are, which are more for
greater characters, and bits that count for more come first.
-/

namespace Automation.Utf8

/-- Of two texts of bytes, the first bytes decide unless they are equal. -/
theorem ofNat_cons_lt {a b : Nat} {r r' : List UInt8} (hb : b < 256) (hle : a ≤ b)
    (h : a = b → r < r') : UInt8.ofNat a :: r < UInt8.ofNat b :: r' := by
  rw [List.cons_lt_cons_iff]
  rcases Nat.lt_or_eq_of_le hle with hlt | heq
  · left
    rw [UInt8.lt_iff_toNat_lt, UInt8.toNat_ofNat_of_lt' (show a < 256 by omega),
      UInt8.toNat_ofNat_of_lt' hb]
    exact hlt
  · exact .inr ⟨congrArg UInt8.ofNat heq, h heq⟩

/-- The bytes of a lesser character come first, whatever follows. -/
theorem encodeChar_append_lt {c d : Char} (h : c < d) (r r' : List UInt8) :
    String.utf8EncodeChar c ++ r < String.utf8EncodeChar d ++ r' := by
  obtain ⟨v, hv⟩ : ∃ v, v = c.val.toNat := ⟨_, rfl⟩
  obtain ⟨w, hw⟩ : ∃ w, w = d.val.toNat := ⟨_, rfl⟩
  have hlt : v < w := hv ▸ hw ▸ h
  have hvalid : w < 0xD800 ∨ (0xDFFF < w ∧ w < 0x110000) := hw ▸ d.valid
  rw [String.utf8EncodeChar, String.utf8EncodeChar]
  simp only [← hv, ← hw]
  -- Where one character has fewer bytes, the first byte decides; the last one decides at the latest.
  split
  case isTrue hv1 =>
    split
    case isTrue => exact ofNat_cons_lt (by omega) (by omega) fun h1 => absurd h1 (by omega)
    split
    case isTrue => exact ofNat_cons_lt (by omega) (by omega) fun h1 => absurd h1 (by omega)
    split <;> exact ofNat_cons_lt (by omega) (by omega) fun h1 => absurd h1 (by omega)
  rw [if_neg (show ¬w ≤ 127 by omega)]
  split
  case isTrue hv2 =>
    split
    case isTrue =>
      exact ofNat_cons_lt (by omega) (by omega) fun h1 =>
        ofNat_cons_lt (by omega) (by omega) fun h2 => absurd h2 (by omega)
    split <;> exact ofNat_cons_lt (by omega) (by omega) fun h1 => absurd h1 (by omega)
  rw [if_neg (show ¬w ≤ 2047 by omega)]
  split
  case isTrue hv3 =>
    split
    case isTrue =>
      exact ofNat_cons_lt (by omega) (by omega) fun h1 =>
        ofNat_cons_lt (by omega) (by omega) fun h2 =>
        ofNat_cons_lt (by omega) (by omega) fun h3 => absurd h3 (by omega)
    case isFalse => exact ofNat_cons_lt (by omega) (by omega) fun h1 => absurd h1 (by omega)
  case isFalse =>
    rw [if_neg (show ¬w ≤ 65535 by omega)]
    exact ofNat_cons_lt (by omega) (by omega) fun h1 =>
      ofNat_cons_lt (by omega) (by omega) fun h2 =>
      ofNat_cons_lt (by omega) (by omega) fun h3 =>
      ofNat_cons_lt (by omega) (by omega) fun h4 => absurd h4 (by omega)

theorem encode_lt {s t : List Char} (h : s < t) : encode s < encode t := by
  induction h with
  | nil =>
    rw [encode_cons]
    obtain ⟨b, bs, hbytes⟩ := List.exists_cons_of_ne_nil String.utf8EncodeChar_ne_nil
    rw [hbytes]
    exact List.Lex.nil
  | rel hlt =>
    rw [encode_cons, encode_cons]
    exact encodeChar_append_lt hlt _ _
  | cons _ ih =>
    rw [encode_cons, encode_cons]
    exact List.Lex.append_left _ ih _

theorem encode_lt_iff {s t : List Char} : encode s < encode t ↔ s < t := by
  refine ⟨fun h => ?_, encode_lt⟩
  rcases lt_trichotomy s t with hlt | rfl | hgt
  · exact hlt
  · exact absurd h (List.lt_irrefl _)
  · exact absurd h (List.lt_asymm (encode_lt hgt))

end Automation.Utf8
