import AeadStream.Hex
import AeadStream.Text.Utf8

/-!
# ASCII text as bytes

A text is read back from its bytes. A text of ASCII characters has one byte for each of them, so
it may be cut anywhere and its parts are text too. Hexadecimal digits are ASCII.

* `Text.ofUtf8?_utf8` — the way back from bytes;
* `Text.Ascii.utf8_take`, `Text.Ascii.utf8_drop` — the parts of an ASCII text;
* `Hex.length_utf8_encode` — two bytes for each byte in hexadecimal digits.
-/

namespace AeadStream

namespace Text

/-- A text is read back from its bytes. -/
theorem ofUtf8?_utf8 (s : String) : ofUtf8? (utf8 s) = some s := by
  have hbytes : (⟨(utf8 s).toArray⟩ : ByteArray) = s.toByteArray := rfl
  rw [ofUtf8?, hbytes, String.fromUTF8?, dif_pos s.isValidUTF8]
  rfl

/-- Bytes that are a text are the bytes of that text. -/
theorem utf8_of_ofUtf8? {bytes : Bytes} {s : String} (h : ofUtf8? bytes = some s) :
    bytes = utf8 s := by
  rw [ofUtf8?, String.fromUTF8?] at h
  split at h
  · obtain rfl := Option.some.inj h
    rfl
  · cases h

/-- The bytes of a text are those of its characters. -/
theorem utf8_ofList (cs : List Char) :
    utf8 (String.ofList cs) = cs.flatMap String.utf8EncodeChar := by
  rw [utf8, String.toUTF8_eq_toByteArray, String.toByteArray_ofList, List.utf8Encode,
    List.data_toByteArray]

/-- **ASCII characters.** -/
def Ascii (cs : List Char) : Prop := ∀ c ∈ cs, c.toNat < 0x80

/-- What holds of all 128 ASCII characters. -/
theorem forall_ascii {P : Char → Prop} (h : ∀ k < 0x80, P (Char.ofNat k)) :
    ∀ c : Char, c.toNat < 0x80 → P c := by
  intro c hc
  have hchar := h c.toNat hc
  rwa [Char.ofNat_toNat] at hchar

/-- A text of ASCII bytes is ASCII: every other character has a byte beyond. -/
theorem ascii_of_utf8 {cs : List Char}
    (h : ∀ b ∈ utf8 (String.ofList cs), b.toNat < 0x80) : Ascii cs := by
  intro c hmem
  refine Nat.not_le.mp fun hge => ?_
  have hlast : ∃ b ∈ String.utf8EncodeChar c, 0x80 ≤ b.toNat := by
    have hbeyond : ¬c.val.toNat ≤ 127 := Nat.not_le.mpr hge
    refine ⟨UInt8.ofNat (c.val.toNat % 64 + 128), ?_, ?_⟩
    · rw [String.utf8EncodeChar]
      simp only [if_neg hbeyond]
      split
      · simp
      · split
        · simp
        · simp
    · rw [UInt8.toNat_ofNat']
      omega
  obtain ⟨b, hb, hbig⟩ := hlast
  have hsmall := h b (by rw [utf8_ofList]; exact List.mem_flatMap.mpr ⟨c, hmem, hb⟩)
  omega

namespace Ascii

variable {cs : List Char}

/-- One byte for each character. -/
theorem utf8_ofList (h : Ascii cs) :
    utf8 (String.ofList cs) = cs.map fun c => UInt8.ofNat c.toNat := by
  rw [Text.utf8_ofList]
  induction cs with
  | nil => rfl
  | cons c cs ih =>
    obtain ⟨hfirst, hlater⟩ := List.forall_mem_cons.mp h
    have hchar : String.utf8EncodeChar c = [UInt8.ofNat c.toNat] :=
      if_pos (Nat.le_of_lt_succ hfirst)
    rw [List.flatMap_cons, hchar, ih hlater]
    rfl

theorem length_utf8 (h : Ascii cs) : (utf8 (String.ofList cs)).length = cs.length := by
  rw [h.utf8_ofList, List.length_map]

theorem take (h : Ascii cs) (n : Nat) : Ascii (cs.take n) := fun c hmem =>
  h c (List.mem_of_mem_take hmem)

theorem drop (h : Ascii cs) (n : Nat) : Ascii (cs.drop n) := fun c hmem =>
  h c (List.mem_of_mem_drop hmem)

/-- The text may be cut anywhere. -/
theorem utf8_take (h : Ascii cs) (n : Nat) :
    (utf8 (String.ofList cs)).take n = utf8 (String.ofList (cs.take n)) := by
  rw [h.utf8_ofList, (h.take n).utf8_ofList, List.map_take]

theorem utf8_drop (h : Ascii cs) (n : Nat) :
    (utf8 (String.ofList cs)).drop n = utf8 (String.ofList (cs.drop n)) := by
  rw [h.utf8_ofList, (h.drop n).utf8_ofList, List.map_drop]

end Ascii

/-- A whole text is the longest one at the front of its bytes. -/
theorem frontOfUtf8?_utf8 (s : String) : frontOfUtf8? (utf8 s) = some (s, 0) := by
  have hwhole : (utf8 s).take ((utf8 s).length - 0) = utf8 s := List.take_length ..
  rw [frontOfUtf8?, List.findSome?_cons, hwhole, ofUtf8?_utf8]
  rfl

end Text

namespace Hex

/-- A digit is ASCII. -/
theorem digit_lt : ∀ n < 16, (digit n).toNat < 0x80 := by decide

/-- The digits of bytes are ASCII. -/
theorem ascii_digits (bytes : Bytes) : Text.Ascii (bytes.flatMap digits) := by
  intro c hmem
  obtain ⟨b, -, hc⟩ := List.mem_flatMap.mp hmem
  have hb : b.toNat < 256 := b.toNat_lt
  have hhigh : (digit (b.toNat / 16)).toNat < 0x80 := digit_lt _ (by omega)
  have hlow : (digit (b.toNat % 16)).toNat < 0x80 := digit_lt _ (by omega)
  simp only [digits, List.mem_cons, List.not_mem_nil, or_false] at hc
  rcases hc with rfl | rfl
  · exact hhigh
  · exact hlow

/-- Each byte has two digits. -/
theorem length_flatMap_digits (bytes : Bytes) :
    (bytes.flatMap digits).length = 2 * bytes.length := by
  induction bytes with
  | nil => rfl
  | cons b bytes ih =>
    rw [List.flatMap_cons, List.length_append, ih, List.length_cons, Nat.mul_add, Nat.add_comm]
    rfl

/-- **Hexadecimal text** is twice as long as its bytes. -/
theorem length_utf8_encode (bytes : Bytes) :
    (Text.utf8 (encode bytes)).length = 2 * bytes.length := by
  rw [encode, (ascii_digits bytes).length_utf8, length_flatMap_digits]

end Hex

end AeadStream
