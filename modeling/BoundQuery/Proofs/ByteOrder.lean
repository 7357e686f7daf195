import Mathlib.Data.String.Basic

/-!
# The order of texts byte by byte

Names are compared character by character. `Text.bytes_lt_iff` says that this is the order of the
bytes that they are stored as: the bytes of a smaller character are smaller at the first place where
they differ, and two characters always differ at some place, so that what follows them does not
count.
-/

namespace BoundQuery

namespace Text

/-- The bytes that a text is stored as. -/
def bytes (text : String) : List UInt8 :=
  text.toUTF8.data.toList

theorem bytes_eq (text : String) : bytes text = text.toList.flatMap String.utf8EncodeChar := by
  rw [bytes, String.toUTF8_eq_toByteArray, ← String.utf8Encode_toList]
  exact List.toList_data_toByteArray

/-- A smaller character has smaller bytes, whatever follows on both sides. -/
theorem encoded_append_lt {c d : Char} (h : c < d) (after rest : List UInt8) :
    String.utf8EncodeChar c ++ after < String.utf8EncodeChar d ++ rest := by
  have hlt : c.val.toNat < d.val.toNat := UInt32.lt_iff_toNat_lt.mp h
  have hlast : d.val.toNat < 0x110000 := d.valid.elim (fun h => by omega) (fun h => h.2)
  unfold String.utf8EncodeChar
  dsimp only
  -- one case for each pair of widths; where they differ, the first byte decides
  split_ifs <;>
    simp only [List.cons_append, List.nil_append, List.cons_lt_cons_iff, UInt8.lt_iff_toNat_lt,
      ← UInt8.toNat_inj, UInt8.toNat_ofNat'] <;>
    simp (disch := omega) only [Nat.mod_eq_of_lt] <;>
    omega

/-- A smaller list of characters has smaller bytes. -/
theorem flatMap_encoded_lt {cs ds : List Char} (h : cs < ds) :
    cs.flatMap String.utf8EncodeChar < ds.flatMap String.utf8EncodeChar := by
  induction h with
  | @nil d ds =>
    rw [List.flatMap_cons]
    obtain ⟨b, bs, hd⟩ := List.exists_cons_of_ne_nil (String.utf8EncodeChar_ne_nil (c := d))
    rw [hd]
    exact List.nil_lt_cons _ _
  | rel hlt => exact encoded_append_lt hlt _ _
  | cons _ ih => exact List.append_left_lt ih

/-- **Byte order.** Texts are in the order of their bytes. -/
theorem bytes_lt_iff {s t : String} : bytes s < bytes t ↔ s < t := by
  have hmono : ∀ {s t : String}, s < t → bytes s < bytes t := by
    intro s t h
    rw [bytes_eq, bytes_eq]
    exact flatMap_encoded_lt h
  refine ⟨fun h => ?_, hmono⟩
  rcases lt_trichotomy s t with hst | rfl | hts
  · exact hst
  · exact absurd h (List.lt_irrefl _)
  · exact absurd h (List.lt_asymm (hmono hts))

end Text

end BoundQuery
