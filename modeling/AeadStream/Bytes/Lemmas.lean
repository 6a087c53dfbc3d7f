import AeadStream.Bytes
import Mathlib.Algebra.Group.Nat.Defs

/-!
# Numbers as bytes and back

* `natOfLe_leBytes`, `natOfBe_beBytes` — a number that was written in `n` bytes reads back as
  its remainder modulo `256 ^ n`, so as itself if it fits;
* `beBytes_natOfBe` — bytes that were read as a number are written back as they were, so a
  number has one form of each length;
* `beBytes_injective`, `xorBytes_injective` — different numbers have different bytes, and stay
  different under a mask;
* `pieces_append`, `pieces_induction` — pieces are cut off in front, one after the other.
-/

namespace AeadStream

/-- Reading back, the least significant byte first. -/
theorem natOfLe_leBytes (n v : Nat) : natOfLe (leBytes n v) = v % 256 ^ n := by
  induction n generalizing v with
  | zero => simp [leBytes, natOfLe, Nat.mod_one]
  | succ n ih =>
    have hb : (UInt8.ofNat v).toNat = v % 256 := by simp
    have hs : natOfLe (leBytes (n + 1) v) =
        (UInt8.ofNat v).toNat + 256 * natOfLe (leBytes n (v / 256)) := rfl
    rw [hs, ih, hb, Nat.pow_succ, Nat.mul_comm (256 ^ n), Nat.mod_mul]

/-- Reading back, the most significant byte first. -/
theorem natOfBe_beBytes (n v : Nat) : natOfBe (beBytes n v) = v % 256 ^ n := by
  rw [beBytes, natOfBe_reverse, natOfLe_leBytes]

/-- The number that `n` bytes hold is below `256 ^ n`. -/
theorem natOfLe_lt (bytes : Bytes) : natOfLe bytes < 256 ^ bytes.length := by
  induction bytes with
  | nil => decide
  | cons b bs ih =>
    have hb : b.toNat < 256 := b.toNat_lt
    have hs : natOfLe (b :: bs) = b.toNat + 256 * natOfLe bs := rfl
    rw [hs, List.length_cons, Nat.pow_succ]
    omega

/-- Writing back, the least significant byte first. -/
theorem leBytes_natOfLe (bytes : Bytes) : leBytes bytes.length (natOfLe bytes) = bytes := by
  induction bytes with
  | nil => rfl
  | cons b bs ih =>
    have hb : b.toNat < 256 := b.toNat_lt
    have hs : natOfLe (b :: bs) = b.toNat + 256 * natOfLe bs := rfl
    have hhead : UInt8.ofNat (natOfLe (b :: bs)) = b := by
      apply UInt8.toNat.inj
      rw [hs, UInt8.toNat_ofNat']
      omega
    have hrest : natOfLe (b :: bs) / 256 = natOfLe bs := by
      rw [hs]
      omega
    rw [List.length_cons, leBytes, hhead, hrest, ih]

/-- The number that `n` bytes hold is below `256 ^ n`, in the other order too. -/
theorem natOfBe_lt (bytes : Bytes) : natOfBe bytes < 256 ^ bytes.length := by
  have h := natOfLe_lt bytes.reverse
  rwa [← natOfBe_reverse, List.reverse_reverse, List.length_reverse] at h

/-- Writing back, the most significant byte first. -/
theorem beBytes_natOfBe (bytes : Bytes) : beBytes bytes.length (natOfBe bytes) = bytes := by
  have h := leBytes_natOfLe bytes.reverse
  rw [← natOfBe_reverse, List.reverse_reverse, List.length_reverse] at h
  rw [beBytes, h, List.reverse_reverse]

/-- Numbers that fit into `n` bytes are told apart by these. -/
theorem beBytes_injective {n v w : Nat} (hv : v < 256 ^ n) (hw : w < 256 ^ n)
    (h : beBytes n v = beBytes n w) : v = w := by
  have hread := congrArg natOfBe h
  rwa [natOfBe_beBytes, natOfBe_beBytes, Nat.mod_eq_of_lt hv, Nat.mod_eq_of_lt hw] at hread

/-- Either of the two may be the mask. -/
theorem xorBytes_comm (a b : Bytes) : xorBytes a b = xorBytes b a :=
  List.zipWith_comm_of_comm UInt8.xor_comm

/-- Bytes of the mask's length are told apart under it. -/
theorem xorBytes_injective {mask a b : Bytes} (ha : a.length = mask.length)
    (hb : b.length = mask.length) (h : xorBytes mask a = xorBytes mask b) : a = b := by
  rw [xorBytes_comm mask a, xorBytes_comm mask b] at h
  have hunmask : xorBytes (xorBytes a mask) mask = xorBytes (xorBytes b mask) mask := by rw [h]
  rwa [xorBytes_xorBytes (Nat.le_of_eq ha), xorBytes_xorBytes (Nat.le_of_eq hb)] at hunmask

/-! ## Pieces -/

/-- A whole piece in front. -/
theorem pieces_append {α : Type} {size : Nat} (hsize : size ≠ 0) {piece : List α}
    (hlen : piece.length = size) (xs : List α) :
    pieces size (piece ++ xs) = piece :: pieces size xs := by
  subst hlen
  cases piece with
  | nil => exact absurd rfl hsize
  | cons y ys =>
    rw [List.cons_append, pieces, List.length_cons, Nat.add_sub_cancel, List.take_left,
      List.drop_left]

/-- What is no longer than a piece is one. -/
theorem pieces_eq_singleton {α : Type} {size : Nat} {piece : List α} (hne : piece ≠ [])
    (hle : piece.length ≤ size) : pieces size piece = [piece] := by
  cases piece with
  | nil => exact absurd rfl hne
  | cons y ys =>
    have hys : ys.length ≤ size - 1 := by
      rw [List.length_cons] at hle
      omega
    rw [pieces, List.take_of_length_le hys, List.drop_of_length_le hys, pieces]

/-- **Induction along the pieces:** a list is empty, or shorter than a piece, or it has a whole
piece in front. -/
@[elab_as_elim]
theorem pieces_induction {α : Type} {size : Nat} (hsize : size ≠ 0) {motive : List α → Prop}
    (nil : motive []) (short : ∀ piece, piece ≠ [] → piece.length < size → motive piece)
    (whole : ∀ piece left, piece.length = size → motive left → motive (piece ++ left))
    (xs : List α) : motive xs := by
  induction hlen : xs.length using Nat.strongRecOn generalizing xs with
  | ind n ih =>
    by_cases hnil : xs = []
    · exact hnil ▸ nil
    by_cases hshort : xs.length < size
    · exact short xs hnil hshort
    · have htake : (xs.take size).length = size := by
        rw [List.length_take]
        omega
      have hless : (xs.drop size).length < n := by
        rw [List.length_drop]
        omega
      have hleft := whole (xs.take size) (xs.drop size) htake (ih _ hless _ rfl)
      rwa [List.take_append_drop] at hleft

/-- No piece is too long. -/
theorem length_le_of_mem_pieces {α : Type} {size : Nat} (hsize : size ≠ 0) {xs piece : List α}
    (hmem : piece ∈ pieces size xs) : piece.length ≤ size := by
  fun_induction pieces size xs with
  | case1 => cases hmem
  | case2 x xs ih =>
    rcases List.mem_cons.mp hmem with rfl | hmem
    · rw [List.length_cons, List.length_take]
      omega
    · exact ih hmem

end AeadStream
