import AeadStream.Proofs.Pipe.RoundTrip

/-!
# The format of an epilogue

An epilogue is written as a CBOR map of two fields with text names, the digest as a text and the
size as an unsigned integer. Every head is the shortest there is for its argument, so nothing else
is the same map written in this way. The number of bytes that hold an argument changes at five
places, and the epilogue is read back on both sides of each.

* `Head.shortest_iff` — what is written is the shortest head, and the only one;
* `mapping_iff` — the same for the whole map;
* `epilogue_comes_back` — reading back, the format and the length.
-/

namespace AeadStream

namespace Cbor.Head

variable {major argument info count : Nat} {bytes : Bytes}

/-! ## Shortest heads -/

/-- **The shortest head** of a major type and an argument: no shape of the argument has fewer
bytes. -/
def Shortest (major argument : Nat) (bytes : Bytes) : Prop :=
  ∃ info count, Shape argument info count ∧
    (∀ {info' count' : Nat}, Shape argument info' count' → count ≤ count') ∧
    bytes = UInt8.ofNat (32 * major + info) :: beBytes count argument

/-- An argument that is not held by the first byte has bytes of its own. -/
theorem Shape.one_le (h : Shape argument info count) (hge : 24 ≤ argument) : 1 ≤ count := by
  cases h with
  | short hlt => omega
  | @long k =>
    rw [Nat.one_shiftLeft]
    exact Nat.one_le_two_pow

/-- One that is too large for so many bytes has twice as many. -/
theorem Shape.double_le {k : Nat} (h : Shape argument info count)
    (hge : 256 ^ (1 <<< k) ≤ argument) : 1 <<< (k + 1) ≤ count := by
  have hpower : ∀ j, 1 ≤ 1 <<< j := by
    intro j
    rw [Nat.one_shiftLeft]
    exact Nat.one_le_two_pow
  cases h with
  | short hlt =>
    have hbyte : 256 ^ 1 ≤ 256 ^ (1 <<< k) := Nat.pow_le_pow_right (by decide) (hpower k)
    omega
  | @long j _ hlt =>
    have hless : k < j := by
      by_contra hle
      have hshift : 1 <<< j ≤ 1 <<< k := by
        rw [Nat.one_shiftLeft, Nat.one_shiftLeft]
        exact Nat.pow_le_pow_right (by decide) (Nat.not_lt.mp hle)
      have hsmaller : 256 ^ (1 <<< j) ≤ 256 ^ (1 <<< k) :=
        Nat.pow_le_pow_right (by decide) hshift
      omega
    rw [Nat.one_shiftLeft, Nat.one_shiftLeft]
    exact Nat.pow_le_pow_right (by decide) hless

/-- What is written is a shortest head. -/
theorem shortest_write (major : Nat) (hlt : argument < UInt64.size) :
    Shortest major argument (write major argument) := by
  rw [write]
  split
  · next h => exact ⟨_, _, .short h, fun _ => Nat.zero_le _, rfl⟩
  next hge =>
  split
  · next h =>
    exact ⟨_, _, .long (k := 0) (by decide) h, fun hother => hother.one_le (Nat.not_lt.mp hge), rfl⟩
  next hge =>
  split
  · next h =>
    exact ⟨_, _, .long (k := 1) (by decide) h,
      fun hother => hother.double_le (k := 0) (Nat.not_lt.mp hge), rfl⟩
  next hge =>
  split
  · next h =>
    exact ⟨_, _, .long (k := 2) (by decide) h,
      fun hother => hother.double_le (k := 1) (Nat.not_lt.mp hge), rfl⟩
  · next hge =>
    exact ⟨_, _, .long (k := 3) (by decide) hlt,
      fun hother => hother.double_le (k := 2) (Nat.not_lt.mp hge), rfl⟩

/-- The number of bytes tells the low bits of the first one. -/
theorem Shape.info_eq {info' count' : Nat} (h : Shape argument info count)
    (h' : Shape argument info' count') (hsame : count = count') : info = info' := by
  have hdistinct : ∀ j < 4, ∀ k < 4, 1 <<< j = 1 <<< k → j = k := by decide
  have hsome : ∀ k < 4, 0 ≠ 1 <<< k := by decide
  cases h with
  | short =>
    cases h' with
    | short => rfl
    | long hk => exact absurd hsame (hsome _ hk)
  | @long j hj =>
    cases h' with
    | short => exact absurd hsame.symm (hsome _ hj)
    | @long k hk => rw [hdistinct j hj k hk hsame]

/-- **What is written is the shortest head,** and the only one. -/
theorem shortest_iff (hlt : argument < UInt64.size) :
    Shortest major argument bytes ↔ bytes = write major argument := by
  constructor
  · rintro ⟨info, count, hshape, hleast, rfl⟩
    obtain ⟨info', count', hshape', hleast', hwrite⟩ := shortest_write major hlt
    have hcount : count = count' := Nat.le_antisymm (hleast hshape') (hleast' hshape)
    rw [hwrite, hshape.info_eq hshape' hcount, hcount]
  · rintro rfl
    exact shortest_write major hlt

end Cbor.Head

namespace Epilogue

open Cbor

variable {e : Epilogue} {bytes : Bytes}

/-! ## The map -/

/-- **A text item:** the shortest head with the number of its bytes, and the bytes. -/
def TextItem (s : String) (bytes : Bytes) : Prop :=
  ∃ head, Head.Shortest 3 (Text.utf8 s).length head ∧ bytes = head ++ Text.utf8 s

/-- **The map of an epilogue:** two fields with their names, the digest before the size. -/
inductive Mapping (e : Epilogue) : Bytes → Prop
  | fields {pair name₁ digest name₂ size : Bytes} (hpair : Head.Shortest 5 2 pair)
      (hname₁ : TextItem "sha256" name₁) (hdigest : TextItem e.sha256 digest)
      (hname₂ : TextItem "size" name₂) (hsize : Head.Shortest 0 e.size.toNat size) :
      Mapping e (pair ++ name₁ ++ digest ++ name₂ ++ size)

/-- What is written is the only text item. -/
theorem textItem_iff {s : String} (hlt : (Text.utf8 s).length < UInt64.size) :
    TextItem s bytes ↔ bytes = encodeText s := by
  rw [TextItem, encodeText]
  constructor
  · rintro ⟨head, hhead, rfl⟩
    rw [(Head.shortest_iff hlt).mp hhead]
  · rintro rfl
    exact ⟨_, Head.shortest_write 3 hlt, rfl⟩

/-- **What is written is the map,** and the only one. -/
theorem mapping_iff (hlt : (Text.utf8 e.sha256).length < UInt64.size) :
    Mapping e bytes ↔ bytes = e.encode := by
  have hname₁ : (Text.utf8 "sha256").length < UInt64.size := by decide
  have hname₂ : (Text.utf8 "size").length < UInt64.size := by decide
  constructor
  · rintro ⟨hpair, hfirst, hdigest, hsecond, hsize⟩
    rw [(Head.shortest_iff (by decide)).mp hpair, (textItem_iff hname₁).mp hfirst,
      (textItem_iff hlt).mp hdigest, (textItem_iff hname₂).mp hsecond,
      (Head.shortest_iff e.size.toNat_lt).mp hsize]
    rfl
  · rintro rfl
    exact .fields (Head.shortest_write 5 (by decide)) ((textItem_iff hname₁).mpr rfl)
      ((textItem_iff hlt).mpr rfl) ((textItem_iff hname₂).mpr rfl)
      (Head.shortest_write 0 e.size.toNat_lt)

/-! ## Reading back -/

/-- **An epilogue comes back** from what is written of it, with anything behind it. What is written
is one map of two fields, and nothing else is. With a digest of 64 characters it is at most 88 bytes
long, and so fits into a chunk of any size that can be chosen. -/
theorem epilogue_comes_back (e : Epilogue) (hascii : Text.Ascii e.sha256.toList)
    (hlt : (Text.utf8 e.sha256).length < UInt64.size) :
    (∀ back : Bytes, decode (e.encode ++ back) = .ok e) ∧
      (∀ bytes, Mapping e bytes ↔ bytes = e.encode) ∧
      (e.sha256.length = 64 → e.encode.length ≤ 88 ∧
        ∀ (text : String) (size : Nat), ChunkSize.parse text = .ok size →
          e.encode.length ≤ size) := by
  refine ⟨decode_append e hascii hlt, fun bytes => mapping_iff hlt, fun hdigest => ?_⟩
  have hbytes : (Text.utf8 e.sha256).length = 64 := by
    have hchars := hascii.length_utf8
    rw [String.ofList_toList] at hchars
    rw [hchars, String.length_toList, hdigest]
  have hshort := length_encode_le hbytes
  refine ⟨hshort, fun text size hparse => ?_⟩
  obtain ⟨hleast, -⟩ := ChunkSize.bounds_of_parse hparse
  have hroom : 88 ≤ ChunkSize.least := by decide
  exact hshort.trans (hroom.trans hleast)

/-- A digest of 65536 characters, whose head has five bytes, comes back beside the greatest size. So
does one of 64 characters, and it fits into the smallest chunks. -/
theorem epilogue_comes_back_at_the_bounds :
    let digest (n : Nat) : String := String.ofList (List.replicate n 'f')
    decode ((Epilogue.mk (digest 65536) 0xffffffffffffffff).encode ++ [0, 255]) =
        .ok ⟨digest 65536, 0xffffffffffffffff⟩ ∧
      ChunkSize.parse "256" = .ok 256 ∧ (digest 64).length = 64 ∧
      (Epilogue.mk (digest 64) 0xffffffffffffffff).encode.length ≤ 256 := by
  intro digest
  have hascii : ∀ n, Text.Ascii (List.replicate n 'f') := by
    intro n c hmem
    rw [List.eq_of_mem_replicate hmem]
    decide
  have hchars : ∀ n, Text.Ascii (digest n).toList := by
    intro n
    rw [String.toList_ofList]
    exact hascii n
  have hlt : ∀ n < UInt64.size, (Text.utf8 (digest n)).length < UInt64.size := by
    intro n hn
    rwa [(hascii n).length_utf8, List.length_replicate]
  have hlen : (digest 64).length = 64 := by decide
  have hparse : ChunkSize.parse "256" = .ok 256 := by decide
  obtain ⟨hback, -⟩ := epilogue_comes_back ⟨digest 65536, 0xffffffffffffffff⟩ (hchars _)
    (hlt _ (by decide))
  obtain ⟨-, -, hfits⟩ := epilogue_comes_back ⟨digest 64, 0xffffffffffffffff⟩ (hchars _)
    (hlt _ (by decide))
  exact ⟨hback _, hparse, hlen, (hfits hlen).2 _ _ hparse⟩

end Epilogue

end AeadStream
