import Automation.Proofs.Text.Utf8

/-!
# ASCII at the beginning

An ASCII character is one byte, and the bytes of all others are no ASCII characters.  So it does not matter
whether an ASCII text is looked for at the beginning of a text or of its bytes (`prefix_octets_iff`).
-/

namespace Automation

def IsAscii (s : List Char) : Prop := ∀ c ∈ s, c.toNat < 0x80

namespace Utf8

/-- The bytes of a text, each as the character with its number. -/
def octets (s : List Char) : List Char := (encode s).map fun b => Char.ofNat b.toNat

theorem toNat_ofNat_byte (b : UInt8) : (Char.ofNat b.toNat).toNat = b.toNat := by
  have hb := b.toNat_lt
  have hvalid : b.toNat.isValidChar := .inl (by omega)
  rw [Char.ofNat, dif_pos hvalid]
  rfl

theorem encodeChar_ascii {c : Char} (hc : c.toNat < 0x80) :
    String.utf8EncodeChar c = [UInt8.ofNat c.toNat] := by
  have hle : c.val.toNat ≤ 127 := Nat.le_of_lt_succ hc
  rw [String.utf8EncodeChar]
  exact if_pos hle

theorem octets_cons_ascii {c : Char} (hc : c.toNat < 0x80) (s : List Char) :
    octets (c :: s) = c :: octets s := by
  have hbyte : (UInt8.ofNat c.toNat).toNat = c.toNat :=
    UInt8.toNat_ofNat_of_lt' (by show c.toNat < 256; omega)
  rw [octets, encode_cons, encodeChar_ascii hc, List.singleton_append, List.map_cons, hbyte,
    Char.ofNat_toNat, ← octets]

/-- The bytes of a longer character are no characters by themselves. -/
theorem head_octets_cons {c : Char} (hc : ¬c.toNat < 0x80) (s : List Char) :
    ∃ d r, octets (c :: s) = d :: r ∧ ¬d.toNat < 0x80 := by
  obtain ⟨b, bs, hbytes⟩ := List.exists_cons_of_ne_nil (String.utf8EncodeChar_ne_nil (c := c))
  refine ⟨Char.ofNat b.toNat, _, by rw [octets, encode_cons, hbytes]; rfl, ?_⟩
  rw [toNat_ofNat_byte]
  intro hb
  have hmem : b ∈ String.utf8EncodeChar c := hbytes ▸ List.mem_cons_self
  rw [← toNat_of_mem_char hb hmem] at hc
  exact hc hb

/-- An ASCII text begins the bytes of a text just if it begins the text. -/
theorem prefix_octets_iff {v : List Char} (hv : IsAscii v) (s : List Char) :
    v <+: octets s ↔ v <+: s := by
  induction v generalizing s with
  | nil => exact iff_of_true List.nil_prefix List.nil_prefix
  | cons d v ih =>
    obtain ⟨hd, hv⟩ := List.forall_mem_cons.1 hv
    cases s with
    | nil => exact Iff.rfl
    | cons c s =>
      by_cases hc : c.toNat < 0x80
      · rw [octets_cons_ascii hc, List.cons_prefix_cons, List.cons_prefix_cons, ih hv]
      · obtain ⟨e, r, heq, he⟩ := head_octets_cons hc s
        rw [heq, List.cons_prefix_cons, List.cons_prefix_cons]
        refine iff_of_false ?_ ?_
        · rintro ⟨rfl, -⟩
          exact he hd
        · rintro ⟨rfl, -⟩
          exact hc hd

theorem length_encode_ascii {s : List Char} (h : IsAscii s) : (encode s).length = s.length := by
  induction s with
  | nil => rfl
  | cons c s ih =>
    obtain ⟨hc, hs⟩ := List.forall_mem_cons.1 h
    rw [encode_cons, encodeChar_ascii hc, List.singleton_append, List.length_cons, ih hs,
      List.length_cons]

theorem take_encode_ascii {v s : List Char} (hv : IsAscii v) (h : v <+: s) :
    (encode s).take v.length = encode v := by
  obtain ⟨r, rfl⟩ := h
  rw [encode_append, List.take_left' (length_encode_ascii hv)]

end Utf8

end Automation
