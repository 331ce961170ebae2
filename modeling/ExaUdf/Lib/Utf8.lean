import Mathlib.Tactic.Common

/-!
# Texts and their bytes

`Utf8.bytes` and `Utf8.text?` go between a text and the list of its UTF-8 bytes.  They are inverse
to each other (`text?_bytes`, `bytes_of_text?`), and ASCII bytes always form a text
(`text?_isSome_of_ascii`).
-/

namespace Utf8

/-- The UTF-8 bytes of a text. -/
def bytes (s : String) : List UInt8 :=
  s.toByteArray.data.toList

/-- The text with the given UTF-8 bytes, if there is one. -/
def text? (bs : List UInt8) : Option String :=
  String.fromUTF8? ⟨bs.toArray⟩

theorem text?_bytes (s : String) : text? (bytes s) = some s := by
  have hvalid : (⟨(bytes s).toArray⟩ : ByteArray).IsValidUTF8 := s.isValidUTF8
  rw [text?, String.fromUTF8?, dif_pos hvalid]
  rfl

theorem bytes_of_text? {bs : List UInt8} {s : String} (h : text? bs = some s) : bytes s = bs := by
  rw [text?, String.fromUTF8?] at h
  split_ifs at h with hvalid
  rw [← Option.some.inj h]
  rfl

theorem text?_isSome {bs : List UInt8} :
    (text? bs).isSome = true ↔ (⟨bs.toArray⟩ : ByteArray).IsValidUTF8 := by
  rw [text?, String.fromUTF8?]
  split_ifs with h <;> simp [h]

/-- Bytes below 128 are the UTF-8 form of a text. -/
theorem text?_isSome_of_ascii {bs : List UInt8} (h : ∀ b ∈ bs, b.toNat < 128) :
    (text? bs).isSome = true := by
  rw [text?_isSome]
  induction bs with
  | nil => exact ByteArray.isValidUTF8_empty
  | cons b bs ih =>
    have hb := h b List.mem_cons_self
    have htail := ih fun c hc => h c (List.mem_cons_of_mem b hc)
    have hval : (Char.ofUInt8 b).val = b.toUInt32 := rfl
    have hsize : (Char.ofUInt8 b).utf8Size = 1 := by
      rw [Char.utf8Size_eq_one_iff, hval, UInt32.le_iff_toNat_le]
      simp
      omega
    have hhead : (⟨[b].toArray⟩ : ByteArray).IsValidUTF8 := by
      have hchar := ByteArray.isValidUTF8_utf8Encode (l := [Char.ofUInt8 b])
      rw [List.utf8Encode_singleton, String.utf8EncodeChar_eq_singleton hsize] at hchar
      have hb' : (Char.ofUInt8 b).val.toUInt8 = b := by
        apply UInt8.toNat_inj.mp
        simp [hval]
      rw [hb'] at hchar
      exact hchar
    have happ := hhead.append htail
    have heq : (⟨[b].toArray⟩ : ByteArray) ++ ⟨bs.toArray⟩ = ⟨(b :: bs).toArray⟩ := by
      apply ByteArray.ext
      simp
    rwa [heq] at happ

end Utf8
