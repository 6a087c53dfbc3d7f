import AeadStream.Cbor.Content
import AeadStream.Proofs.Text
import AeadStream.Bytes.Lemmas

/-!
# Heads and texts are read back

A head that was written in as few bytes as possible is read as the head of its item, and an ASCII
text behind its head is read as that text, whole or in slices.

* `Head.read_write` — heads;
* `textPiece_utf8` — texts.
-/

namespace AeadStream.Cbor

/-! ## Cursors -/

/-- The bytes that are next are taken. -/
theorem Cursor.take_append {c : Cursor} {front back : Bytes} (h : c.rest = front ++ back) :
    c.take front.length = .ok (front, c.skip front.length) ∧
      (c.skip front.length).rest = back := by
  constructor
  · rw [Cursor.take, h, List.take_left]
    exact if_neg (Nat.lt_irrefl _)
  · rw [Cursor.skip, h, List.drop_left]

/-! ## Heads -/

namespace Head

/-- **The shape of a head** of this argument: the low bits of its first byte and how many bytes
hold the argument behind it. -/
inductive Shape (argument : Nat) : Nat → Nat → Prop
  | short (hlt : argument < 24) : Shape argument argument 0
  | long {k : Nat} (hk : k < 4) (hlt : argument < 256 ^ (1 <<< k)) :
      Shape argument (24 + k) (1 <<< k)

/-- A head that was written has one of these shapes. -/
theorem exists_shape {argument : Nat} (major : Nat) (hlt : argument < UInt64.size) :
    ∃ info count, Shape argument info count ∧
      write major argument = UInt8.ofNat (32 * major + info) :: beBytes count argument := by
  rw [write]
  split
  · next h => exact ⟨_, _, .short h, rfl⟩
  split
  · next h => exact ⟨_, _, .long (k := 0) (by decide) h, rfl⟩
  split
  · next h => exact ⟨_, _, .long (k := 1) (by decide) h, rfl⟩
  split
  · next h => exact ⟨_, _, .long (k := 2) (by decide) h, rfl⟩
  · exact ⟨_, _, .long (k := 3) (by decide) hlt, rfl⟩

/-- A shape tells the argument. -/
theorem Shape.argument {argument info count : Nat} (h : Shape argument info count) {c : Cursor}
    {back : Bytes} (hrest : c.rest = beBytes count argument ++ back) (start : Nat) :
    ∃ d : Cursor, c.argument start info = .ok (some argument, d) ∧ d.rest = back := by
  cases h with
  | short hlt => exact ⟨c, if_pos hlt, hrest⟩
  | @long k hk hlt =>
    have hlen : (beBytes (1 <<< k) argument).length = 1 <<< k := length_beBytes ..
    obtain ⟨htake, hback⟩ := Cursor.take_append hrest
    rw [hlen] at htake hback
    refine ⟨_, ?_, hback⟩
    rw [Cursor.argument, if_neg (by omega), if_pos (by omega), Nat.add_sub_cancel_left, htake]
    simp only [natOfBe_beBytes, Nat.mod_eq_of_lt hlt]

theorem Shape.info_lt {argument info count : Nat} (h : Shape argument info count) :
    info < 28 := by
  cases h with
  | short hlt => omega
  | long hk => omega

/-- **A head is read back.** The head of an integer, a text, an array, a map or a tag is told by
the major type and the argument. -/
theorem read_write {major argument : Nat} {head : Head} (hmajor : major < 7)
    (hlt : argument < UInt64.size) (hhead : ∀ info, ofParts? major info argument = some head)
    {c : Cursor} {back : Bytes} (hrest : c.rest = write major argument ++ back) :
    ∃ d, read c = .ok (head, d) ∧ d.rest = back := by
  obtain ⟨info, count, hshape, hwrite⟩ := exists_shape major hlt
  have hinfo := hshape.info_lt
  -- the first byte holds both numbers
  have hfirst : (UInt8.ofNat (32 * major + info)).toNat = 32 * major + info := by
    rw [UInt8.toNat_ofNat']
    omega
  have hlow : (UInt8.ofNat (32 * major + info)).toNat % 32 = info := by omega
  have hhigh : (UInt8.ofNat (32 * major + info)).toNat / 32 = major := by omega
  rw [hwrite, List.cons_append] at hrest
  obtain ⟨d, hargument, hback⟩ :=
    hshape.argument (c := ⟨beBytes count argument ++ back, c.offset + 1⟩) rfl c.offset
  refine ⟨d, ?_, hback⟩
  rw [read, hrest]
  simp only [hlow, hhigh, hargument, hhead]

/-- A head is at most nine bytes. -/
theorem length_write_le (major : Nat) {argument : Nat} (hlt : argument < UInt64.size) :
    (write major argument).length ≤ 9 := by
  obtain ⟨info, count, hshape, hwrite⟩ := exists_shape major hlt
  rw [hwrite, List.length_cons, length_beBytes]
  cases hshape with
  | short => decide
  | @long k hk =>
    have hpower : ∀ k < 4, 1 <<< k + 1 ≤ 9 := by decide
    exact hpower k hk

end Head

/-! ## Texts -/

/-- **An ASCII text is read back,** in one piece or in slices. -/
theorem textPiece_utf8 (start : Nat) {cs : List Char} (h : Text.Ascii cs) (s : String) {c : Cursor}
    {back : Bytes} (hrest : c.rest = Text.utf8 (String.ofList cs) ++ back) :
    ∃ d, textPiece start cs.length s c = .ok (s ++ String.ofList cs, d) ∧ d.rest = back := by
  generalize hn : cs.length = n
  induction n using Nat.strongRecOn generalizing cs s c with
  | ind n ih =>
    subst hn
    have hlen := h.length_utf8
    obtain ⟨htake, hback⟩ := Cursor.take_append hrest
    rw [hlen] at htake hback
    rw [textPiece]
    split
    · next hle =>
      refine ⟨_, ?_, hback⟩
      rw [htake]
      simp only [Text.ofUtf8?_utf8]
    · next hlt =>
      -- nothing is left over of the first slice
      have hslice : (cs.take sliceSize).length = sliceSize := by
        rw [List.length_take]
        omega
      have hcut : c.rest = Text.utf8 (String.ofList (cs.take sliceSize)) ++
          (Text.utf8 (String.ofList (cs.drop sliceSize)) ++ back) := by
        rw [hrest, ← List.append_assoc, ← h.utf8_take, ← h.utf8_drop, List.take_append_drop]
      obtain ⟨hfirst, hlater⟩ := Cursor.take_append hcut
      rw [(h.take sliceSize).length_utf8, hslice] at hfirst hlater
      have hless : (cs.drop sliceSize).length = cs.length - sliceSize := List.length_drop
      have hdecr : cs.length - sliceSize < cs.length := by
        simp only [sliceSize] at hlt ⊢
        omega
      obtain ⟨d, hread, hend⟩ :=
        ih _ hdecr (h.drop sliceSize) (s ++ String.ofList (cs.take sliceSize)) hlater hless
      refine ⟨d, ?_, hend⟩
      rw [hfirst]
      simp only
      split
      · next hnone =>
        rw [Text.frontOfUtf8?_utf8] at hnone
        cases hnone
      · next hsome =>
        rw [Text.frontOfUtf8?_utf8] at hsome
        obtain ⟨rfl, rfl⟩ := Prod.mk.inj (Option.some.inj hsome)
        rw [Nat.sub_zero, hread, String.append_assoc, ← String.ofList_append,
          List.take_append_drop]

end AeadStream.Cbor
