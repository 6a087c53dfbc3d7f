import AeadStream.Epilogue
import AeadStream.Proofs.Cbor

/-!
# The epilogue is read back

What was written of an epilogue is read as the same epilogue, whatever is behind it. With a digest
of 64 digits, such as that of a plaintext, it is at most 88 bytes long.

* `decode_append` — the round trip;
* `length_encode_le` — the length with such a digest;
* `length_encode_ofPlaintext`, `length_encode_ofPlaintext_le` — the length for a plaintext.
-/

namespace AeadStream.Epilogue

open Cbor

variable {c d : Cursor} {back : Bytes}

/-! ## Behind a head -/

theorem readText_text {length : Option Nat} (hread : Head.read c = .ok (.text length, d)) :
    readText c = textReader.content length "" d := by
  rw [readText]
  split
  · next h => rw [hread] at h; cases h
  · next h => rw [hread] at h; cases h
  · next h => rw [hread] at h; cases h; rfl
  · next hnot h => rw [hread] at h; cases h; exact (hnot _ rfl).elim

theorem readSize_unsigned {n : Nat} (hread : Head.read c = .ok (.unsigned n, d)) :
    readSize c = .ok (UInt64.ofNat n, d) := by
  rw [readSize]
  split
  · next h => rw [hread] at h; cases h
  · next h => rw [hread] at h; cases h; rfl
  · next h => rw [hread] at h; cases h
  · next h => rw [hread] at h; cases h
  · next hnot _ _ h => rw [hread] at h; cases h; exact (hnot _ rfl).elim

theorem readMap_map {length : Option Nat} (hread : Head.read c = .ok (.map length, d)) :
    readMap c = readFields length {} d := by
  rw [readMap]
  split
  · next h => rw [hread] at h; cases h
  · next h => rw [hread] at h; cases h
  · next h => rw [hread] at h; cases h; rfl
  · next hnot h => rw [hread] at h; cases h; exact (hnot _ rfl).elim

theorem readName_text {lookedAt : Bool} {length : Nat}
    (hread : Head.read c = .ok (.text (some length), d)) (hle : length ≤ maxNameLength)
    {name : Bytes} {e : Cursor} (htake : d.take length = .ok (name, e))
    (hname : (Text.ofUtf8? name).isSome) : readName lookedAt c = .ok (name, e) := by
  rw [readName]
  split
  · next h => rw [hread] at h; cases h
  · next h => rw [hread] at h; cases h
  · next h =>
    rw [hread] at h
    cases h
    rw [if_neg (Nat.not_lt.mpr hle), htake]
    simp only [hname, if_true]
  · next h => rw [hread] at h; cases h
  · next hnot _ h => rw [hread] at h; cases h; exact (hnot _ rfl).elim

/-! ## Parts -/

/-- The head of a map of two fields. -/
theorem read_pair (back : Bytes) :
    ∃ d, Head.read { rest := Head.write 5 2 ++ back } = .ok (.map (some 2), d) ∧ d.rest = back :=
  Head.read_write (by decide) (by decide) (fun _ => rfl) rfl

/-- The head of a text and its bytes. -/
theorem read_encodeText {s : String} (hlt : (Text.utf8 s).length < UInt64.size)
    (hrest : c.rest = encodeText s ++ back) :
    ∃ d, Head.read c = .ok (.text (some (Text.utf8 s).length), d) ∧
      d.rest = Text.utf8 s ++ back := by
  rw [encodeText, List.append_assoc] at hrest
  exact Head.read_write (by decide) hlt (fun _ => rfl) hrest

/-- A text is read back. -/
theorem readText_encodeText {s : String} (hascii : Text.Ascii s.toList)
    (hlt : (Text.utf8 s).length < UInt64.size) (hrest : c.rest = encodeText s ++ back) :
    ∃ d, readText c = .ok (s, d) ∧ d.rest = back := by
  obtain ⟨d, hread, hd⟩ := read_encodeText hlt hrest
  have hlen : (Text.utf8 s).length = s.toList.length := by
    have hchars := hascii.length_utf8
    rwa [String.ofList_toList] at hchars
  rw [← String.ofList_toList (s := s)] at hd
  obtain ⟨e, hpiece, he⟩ :=
    textPiece_utf8 (d.offset - Head.shortestSize s.toList.length) hascii "" hd
  rw [String.ofList_toList, String.empty_append] at hpiece
  refine ⟨e, ?_, he⟩
  rw [readText_text hread, hlen]
  exact hpiece

/-- A name that is not too long is read back. -/
theorem readName_encodeText (lookedAt : Bool) {s : String}
    (hle : (Text.utf8 s).length ≤ maxNameLength) (hrest : c.rest = encodeText s ++ back) :
    ∃ d, readName lookedAt c = .ok (Text.utf8 s, d) ∧ d.rest = back := by
  have hlt : (Text.utf8 s).length < UInt64.size := Nat.lt_of_le_of_lt hle (by decide)
  obtain ⟨d, hread, hd⟩ := read_encodeText hlt hrest
  obtain ⟨htake, hback⟩ := Cursor.take_append hd
  refine ⟨_, readName_text hread hle htake ?_, hback⟩
  rw [Text.ofUtf8?_utf8]
  rfl

/-- A size is read back. -/
theorem readSize_write (size : UInt64) (hrest : c.rest = Head.write 0 size.toNat ++ back) :
    ∃ d, readSize c = .ok (size, d) ∧ d.rest = back := by
  obtain ⟨d, hread, hd⟩ := Head.read_write (by decide) size.toNat_lt (fun _ => rfl) hrest
  refine ⟨d, ?_, hd⟩
  rw [readSize_unsigned hread, UInt64.ofNat_toNat]

/-! ## Fields -/

/-- One more field of a map that says how many it has. -/
theorem readFields_field {left : Nat} {f g : Fields} {name : Bytes} {d e : Cursor}
    (hleft : left ≠ 0) (hname : readName false c = .ok (name, d))
    (hvalue : f.readValue name d = .ok (g, e)) :
    readFields (some left) f c = readFields (some (left - 1)) g e := by
  rw [readFields, isAtEnd, decide_eq_false hleft]
  dsimp only
  split
  · next h => rw [Option.isNone_some, hname] at h; cases h
  · next h =>
    rw [Option.isNone_some, hname] at h
    cases h
    split
    · next h => rw [hvalue] at h; cases h
    · next h => rw [hvalue] at h; cases h; rfl

/-- No more fields. -/
theorem readFields_end (f : Fields) (c : Cursor) : readFields (some 0) f c = f.finish := by
  rw [readFields]
  rfl

theorem readValue_sha256 {f : Fields} {sha256 : String} (hnone : f.sha256 = none)
    (hread : readText c = .ok (sha256, d)) :
    f.readValue (Text.utf8 "sha256") c = .ok ({ f with sha256 }, d) := by
  rw [Fields.readValue, if_pos rfl, hnone, hread]
  rfl

theorem readValue_size {f : Fields} {size : UInt64} (hnone : f.size = none)
    (hread : readSize c = .ok (size, d)) :
    f.readValue (Text.utf8 "size") c = .ok ({ f with size }, d) := by
  rw [Fields.readValue, if_neg (by decide), if_pos rfl, hnone, hread]
  rfl

/-! ## The round trip -/

/-- **An epilogue is read back,** with anything behind it. -/
theorem decode_append (epilogue : Epilogue) (hascii : Text.Ascii epilogue.sha256.toList)
    (hlt : (Text.utf8 epilogue.sha256).length < UInt64.size) (back : Bytes) :
    decode (epilogue.encode ++ back) = .ok epilogue := by
  rw [decode, encode]
  simp only [List.append_assoc]
  obtain ⟨c₀, hmap, h₀⟩ := read_pair _
  obtain ⟨c₁, hname₁, h₁⟩ := readName_encodeText false (s := "sha256") (by decide) h₀
  obtain ⟨c₂, htext, h₂⟩ := readText_encodeText hascii hlt h₁
  obtain ⟨c₃, hname₂, h₃⟩ := readName_encodeText false (s := "size") (by decide) h₂
  obtain ⟨c₄, hsize, -⟩ := readSize_write epilogue.size h₃
  calc readMap _
    _ = readFields (some 2) {} c₀ := readMap_map hmap
    _ = readFields (some 1) { sha256 := epilogue.sha256 } c₂ :=
      readFields_field (by decide) hname₁ (readValue_sha256 rfl htext)
    _ = readFields (some 0) { sha256 := epilogue.sha256, size := epilogue.size } c₄ :=
      readFields_field (by decide) hname₂ (readValue_size rfl hsize)
    _ = .ok epilogue := readFields_end _ _

/-! ## The length -/

/-- How long an epilogue is depends on the digest and on the size. -/
theorem length_encode (epilogue : Epilogue) :
    epilogue.encode.length =
      13 + (encodeText epilogue.sha256).length + (Head.write 0 epilogue.size.toNat).length := by
  have hmap : (Head.write 5 2).length = 1 := rfl
  have hname₁ : (encodeText "sha256").length = 7 := by decide
  have hname₂ : (encodeText "size").length = 5 := by decide
  simp only [encode, List.length_append]
  omega

/-- With a digest of 64 bytes it depends on the size alone. -/
theorem length_encode_of_digest {epilogue : Epilogue}
    (h : (Text.utf8 epilogue.sha256).length = 64) :
    epilogue.encode.length = 79 + (Head.write 0 epilogue.size.toNat).length := by
  have htext : (encodeText epilogue.sha256).length = 66 := by
    rw [encodeText, List.length_append, h]
    rfl
  rw [length_encode, htext]

/-- **An epilogue is short,** whatever the size. -/
theorem length_encode_le {epilogue : Epilogue} (h : (Text.utf8 epilogue.sha256).length = 64) :
    epilogue.encode.length ≤ 88 := by
  have hsize := Head.length_write_le 0 epilogue.size.toNat_lt
  rw [length_encode_of_digest h]
  omega

/-! ## The epilogue of a plaintext -/

/-- **An epilogue that matches** a plaintext, in its size and in its digest. -/
structure Matches (epilogue : Epilogue) (plaintext : Bytes) : Prop where
  size : epilogue.size.toNat = plaintext.length
  sha256 : epilogue.sha256 = Hex.encode (Sha256.digest plaintext).bytes

/-- The epilogue of a plaintext matches it, if its length is below `2 ^ 64`. -/
theorem matches_ofPlaintext {plaintext : Bytes} (hlt : plaintext.length < UInt64.size) :
    (ofPlaintext plaintext).Matches plaintext :=
  ⟨UInt64.toNat_ofNat_of_lt' hlt, rfl⟩

/-- The digest of a plaintext is 64 characters. -/
theorem length_sha256_ofPlaintext (plaintext : Bytes) :
    (Text.utf8 (ofPlaintext plaintext).sha256).length = 64 := by
  rw [ofPlaintext, Hex.length_utf8_encode, Octets.length_bytes]

/-- The epilogue of a plaintext is read back. -/
theorem decode_encode_ofPlaintext (plaintext : Bytes) :
    decode (ofPlaintext plaintext).encode = .ok (ofPlaintext plaintext) := by
  have hascii : Text.Ascii (ofPlaintext plaintext).sha256.toList := by
    rw [ofPlaintext, Hex.encode, String.toList_ofList]
    exact Hex.ascii_digits _
  have hlt : (Text.utf8 (ofPlaintext plaintext).sha256).length < UInt64.size := by
    rw [length_sha256_ofPlaintext]
    decide
  have hback := decode_append _ hascii hlt []
  rwa [List.append_nil] at hback

/-- **How long the epilogue of a plaintext is** depends on the size alone. -/
theorem length_encode_ofPlaintext (plaintext : Bytes) :
    (ofPlaintext plaintext).encode.length =
      79 + (Head.write 0 (UInt64.ofNat plaintext.length).toNat).length :=
  length_encode_of_digest (length_sha256_ofPlaintext plaintext)

/-- **The epilogue of a plaintext is short.** -/
theorem length_encode_ofPlaintext_le (plaintext : Bytes) :
    (ofPlaintext plaintext).encode.length ≤ 88 :=
  length_encode_le (length_sha256_ofPlaintext plaintext)

end AeadStream.Epilogue
