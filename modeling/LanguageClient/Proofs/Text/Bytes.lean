import LanguageClient.Text.Utf8

/-!
# LanguageClient.Proofs.Text.Bytes -- a text and its bytes

The bytes of a text are those of its characters one after another, and only the bytes of a text are
read as that text (`ofBytes?_eq_some_iff`). A byte below `0x80` stands for the character of its number
and for nothing else (`ascii_mem_bytes_iff`), so a line of bytes ends where the line of text does.
-/

namespace LanguageClient.Text

/-! ## Byte arrays -/

/-- The loop of `ByteArray.toList` puts what it has taken before what is left. -/
theorem toList_loop (a : ByteArray) (left : Nat) :
    ∀ (i : Nat) (taken : List UInt8), a.size - i = left →
      ByteArray.toList.loop a i taken = taken.reverse ++ a.data.toList.drop i := by
  -- the loop counts up, so the induction is on the number of bytes that are left
  induction left with
  | zero =>
    intro i taken h
    have hge : ¬ i < a.size := by omega
    have hnil : a.data.toList.drop i = [] := List.drop_eq_nil_iff.mpr (by simpa using hge)
    rw [ByteArray.toList.loop, if_neg hge, hnil, List.append_nil]
  | succ left ih =>
    intro i taken h
    have hlt : i < a.size := by omega
    have hhead : a.data.toList.drop i = a.get! i :: a.data.toList.drop (i + 1) := by
      rw [List.drop_eq_getElem_cons (by simpa using hlt)]
      simp [ByteArray.get!, hlt]
    rw [ByteArray.toList.loop, if_pos hlt, ih (i + 1) _ (by omega), hhead]
    simp

theorem toList_eq_data (a : ByteArray) : a.toList = a.data.toList :=
  (toList_loop a a.size 0 [] rfl).trans (by simp)

/-! ## Characters one after another -/

theorem data_utf8Encode (cs : List Char) :
    cs.utf8Encode.data.toList = cs.flatMap String.utf8EncodeChar := by
  induction cs with
  | nil => rfl
  | cons c cs ih =>
    rw [List.utf8Encode_cons, List.utf8Encode_singleton, ByteArray.toList_data_append, ih,
      List.toList_data_toByteArray, List.flatMap_cons]

theorem bytes_eq (s : String) : bytes s = s.toList.flatMap String.utf8EncodeChar := by
  unfold bytes
  rw [toList_eq_data, String.toUTF8_eq_toByteArray, ← String.utf8Encode_toList, data_utf8Encode]

@[simp] theorem bytes_append (s t : String) : bytes (s ++ t) = bytes s ++ bytes t := by
  simp [bytes_eq]

/-! ## Back to text -/

theorem ofBytes?_eq_some_iff {bs : List UInt8} {s : String} :
    ofBytes? bs = some s ↔ bytes s = bs := by
  unfold ofBytes? String.fromUTF8?
  constructor
  · intro h
    split at h
    · next hvalid =>
      obtain rfl := Option.some.inj h
      unfold bytes
      rw [toList_eq_data]
      rfl
    · exact absurd h (Option.some_ne_none s).symm
  · rintro rfl
    have harray : (⟨(bytes s).toArray⟩ : ByteArray) = s.toByteArray := by
      unfold bytes
      rw [toList_eq_data, String.toUTF8_eq_toByteArray, Array.toArray_toList]
    rw [harray, dif_pos s.isValidUTF8]
    rfl

@[simp] theorem ofBytes?_bytes (s : String) : ofBytes? (bytes s) = some s :=
  ofBytes?_eq_some_iff.mpr rfl

/-! ## ASCII -/

/-- A byte below `0x80` in the bytes of a character is the number of the character. -/
theorem toNat_of_mem_utf8EncodeChar {c : Char} {b : UInt8} (h : b ∈ String.utf8EncodeChar c)
    (hb : b.toNat < 0x80) : c.toNat = b.toNat := by
  have hsize : c.val.toNat < 0x110000 := by
    have hvalid := c.valid
    rcases hvalid with hlt | ⟨-, hlt⟩ <;> omega
  simp only [String.utf8EncodeChar] at h
  show c.val.toNat = b.toNat
  split at h
  · obtain rfl := List.mem_singleton.mp h
    simp only [UInt8.toNat_ofNat']
    omega
  · -- every byte of a longer sequence is `0x80` or above
    exfalso
    split at h
    · simp only [List.mem_cons, List.not_mem_nil, or_false] at h
      rcases h with rfl | rfl <;> simp only [UInt8.toNat_ofNat'] at hb <;> omega
    · split at h
      · simp only [List.mem_cons, List.not_mem_nil, or_false] at h
        rcases h with rfl | rfl | rfl <;> simp only [UInt8.toNat_ofNat'] at hb <;> omega
      · simp only [List.mem_cons, List.not_mem_nil, or_false] at h
        rcases h with rfl | rfl | rfl | rfl <;> simp only [UInt8.toNat_ofNat'] at hb <;> omega

theorem utf8EncodeChar_of_ascii {c : Char} (h : c.toNat < 0x80) :
    String.utf8EncodeChar c = [UInt8.ofNat c.toNat] := by
  unfold String.utf8EncodeChar
  have hle : c.val.toNat ≤ 0x7f := Nat.le_of_lt_succ h
  simp only [hle, if_true]
  rfl

/-- An ASCII character is in a text if its byte is in the bytes. -/
theorem ascii_mem_bytes_iff {s : String} {c : Char} (hc : c.toNat < 0x80) :
    UInt8.ofNat c.toNat ∈ bytes s ↔ c ∈ s.toList := by
  have hnat : (UInt8.ofNat c.toNat).toNat = c.toNat := by
    simp only [UInt8.toNat_ofNat']
    omega
  rw [bytes_eq, List.mem_flatMap]
  constructor
  · rintro ⟨d, hd, hmem⟩
    have heq : d.toNat = c.toNat := by
      rw [toNat_of_mem_utf8EncodeChar hmem (by rwa [hnat]), hnat]
    rwa [← Char.toNat_inj.mp heq]
  · intro h
    refine ⟨c, h, ?_⟩
    rw [utf8EncodeChar_of_ascii hc]
    exact List.mem_singleton.mpr rfl

end LanguageClient.Text
