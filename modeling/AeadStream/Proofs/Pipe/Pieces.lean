import Mathlib.Algebra.Order.Floor.Div
import AeadStream.Bytes.Lemmas
import AeadStream.Chunk

/-!
# The frames of a plaintext

A plaintext that is cut into pieces becomes one frame of data for each piece. There are as few of
them as the size allows: all but the last are whole.

* `flatMap_dataFrames` — the frames hold the plaintext;
* `length_dataFrames` — how many there are;
* `length_of_mem_dropLast_dataFrames` — how long they are;
* `dataFrames_eq_map`, `consecutive_pieceAt` — which piece is at which place.
-/

namespace AeadStream.Pipe

variable {size : Nat} {plaintext : Bytes}

/-- **The frames of data** of a plaintext, one for each piece. -/
def dataFrames (size : Nat) (plaintext : Bytes) : List (Bytes × Tag) :=
  (pieces size plaintext).map fun piece => (piece, .message)

/-- They hold the plaintext. -/
theorem flatMap_dataFrames (size : Nat) (plaintext : Bytes) :
    (dataFrames size plaintext).flatMap Prod.fst = plaintext := by
  rw [dataFrames, List.flatMap_map, List.flatMap_def, List.map_id', flatten_pieces]

/-- None of them is final. -/
theorem ne_final_of_mem_dataFrames {f : Bytes × Tag} (hmem : f ∈ dataFrames size plaintext) :
    f.2 ≠ .final := by
  obtain ⟨piece, -, rfl⟩ := List.mem_map.mp hmem
  exact nofun

/-- None of them is too long. -/
theorem length_le_of_mem_dataFrames (hsize : size ≠ 0) {f : Bytes × Tag}
    (hmem : f ∈ dataFrames size plaintext) : f.1.length ≤ size := by
  obtain ⟨piece, hpiece, rfl⟩ := List.mem_map.mp hmem
  exact length_le_of_mem_pieces hsize hpiece

theorem dataFrames_nil (size : Nat) : dataFrames size [] = [] := by
  rw [dataFrames, pieces, List.map_nil]

/-- What is no longer than a piece is one frame. -/
theorem dataFrames_of_le (hne : plaintext ≠ []) (hle : plaintext.length ≤ size) :
    dataFrames size plaintext = [(plaintext, .message)] := by
  rw [dataFrames, pieces_eq_singleton hne hle, List.map_singleton]

/-- A whole piece is the first frame. -/
theorem dataFrames_append (hsize : size ≠ 0) {piece : Bytes} (hlen : piece.length = size)
    (left : Bytes) :
    dataFrames size (piece ++ left) = (piece, .message) :: dataFrames size left := by
  rw [dataFrames, pieces_append hsize hlen, List.map_cons, dataFrames]

/-- **Their number** is the length of the plaintext over the size, rounded up. -/
theorem length_dataFrames (hsize : size ≠ 0) (plaintext : Bytes) :
    (dataFrames size plaintext).length = plaintext.length ⌈/⌉ size := by
  induction plaintext using pieces_induction hsize with
  | nil =>
    rw [dataFrames_nil, List.length_nil, List.length_nil, zero_ceilDiv]
  | short piece hne hshort =>
    have hpos := List.length_pos_iff.mpr hne
    have hone : piece.length + size - 1 = piece.length - 1 + size := by omega
    have hless : piece.length - 1 < size := by omega
    rw [dataFrames_of_le hne (Nat.le_of_lt hshort), List.length_singleton,
      Nat.ceilDiv_eq_add_pred_div, hone, Nat.add_div_right _ (Nat.pos_of_ne_zero hsize),
      Nat.div_eq_of_lt hless]
  | whole piece left hlen ih =>
    have hwhole : (piece ++ left).length + size - 1 = left.length + size - 1 + size := by
      rw [List.length_append]
      omega
    rw [dataFrames_append hsize hlen, List.length_cons, ih, Nat.ceilDiv_eq_add_pred_div,
      Nat.ceilDiv_eq_add_pred_div, hwhole, Nat.add_div_right _ (Nat.pos_of_ne_zero hsize)]

/-- All but the last are whole. -/
theorem length_of_mem_dropLast_dataFrames (hsize : size ≠ 0) (plaintext : Bytes) :
    ∀ f ∈ (dataFrames size plaintext).dropLast, f.1.length = size := by
  induction plaintext using pieces_induction hsize with
  | nil =>
    rw [dataFrames_nil]
    exact fun f hf => absurd hf List.not_mem_nil
  | short piece hne hshort =>
    rw [dataFrames_of_le hne (Nat.le_of_lt hshort)]
    exact fun f hf => absurd hf List.not_mem_nil
  | whole piece left hlen ih =>
    rw [dataFrames_append hsize hlen]
    cases hleft : dataFrames size left with
    | nil => exact fun f hf => absurd hf List.not_mem_nil
    | cons f fs =>
      rw [hleft] at ih
      rw [List.dropLast_cons_of_ne_nil (List.cons_ne_nil f fs)]
      exact List.forall_mem_cons.mpr ⟨hlen, ih⟩

/-! ## The piece at a place -/

/-- **The piece at place `i`.** -/
def pieceAt (size : Nat) (plaintext : Bytes) (i : Nat) : Bytes :=
  (plaintext.drop (i * size)).take size

theorem length_pieceAt (size : Nat) (plaintext : Bytes) (i : Nat) :
    (pieceAt size plaintext i).length = min size (plaintext.length - i * size) := by
  rw [pieceAt, List.length_take, List.length_drop]

/-- The places behind a whole piece are those of what is left, moved on by one. -/
theorem pieceAt_append_succ {piece : Bytes} (hlen : piece.length = size) (left : Bytes) (i : Nat) :
    pieceAt size (piece ++ left) (i + 1) = pieceAt size left i := by
  rw [pieceAt, pieceAt, Nat.succ_mul, Nat.add_comm, ← List.drop_drop, List.drop_left' hlen]

/-- **The frames of data** carry the pieces at their places. -/
theorem dataFrames_eq_map (hsize : size ≠ 0) (plaintext : Bytes) :
    dataFrames size plaintext =
      (List.range (plaintext.length ⌈/⌉ size)).map fun i => (pieceAt size plaintext i, .message) := by
  rw [← length_dataFrames hsize]
  induction plaintext using pieces_induction hsize with
  | nil => rw [dataFrames_nil, List.length_nil, List.range_zero, List.map_nil]
  | short piece hne hshort =>
    have hle := Nat.le_of_lt hshort
    rw [dataFrames_of_le hne hle, List.length_singleton, List.range_one, List.map_singleton,
      pieceAt, Nat.zero_mul, List.drop_zero, List.take_of_length_le hle]
  | whole piece left hlen ih =>
    rw [dataFrames_append hsize hlen, List.length_cons, List.range_succ_eq_map, List.map_cons,
      List.map_map, pieceAt, Nat.zero_mul, List.drop_zero, List.take_left' hlen]
    refine congrArg (_ :: ·) (ih.trans (List.map_congr_left fun i _ => ?_))
    exact congrArg (·, Tag.message) (pieceAt_append_succ hlen left i).symm

/-- **A plaintext that is cut** into consecutive pieces: none is empty or longer than the size, and
only the last may be shorter. -/
structure Consecutive (size : Nat) (plaintext : Bytes) (count : Nat) (piece : Nat → Bytes) : Prop where
  whole : (List.range count).flatMap piece = plaintext
  ne_nil : ∀ i < count, piece i ≠ []
  length_le : ∀ i < count, (piece i).length ≤ size
  length_eq : ∀ i, i + 1 < count → (piece i).length = size

/-- **The pieces at their places** are the plaintext, cut. -/
theorem consecutive_pieceAt (hsize : size ≠ 0) (plaintext : Bytes) :
    Consecutive size plaintext (plaintext.length ⌈/⌉ size) (pieceAt size plaintext) := by
  have hpos := Nat.pos_of_ne_zero hsize
  have hlt : ∀ {i}, i < plaintext.length ⌈/⌉ size → size * i < plaintext.length := fun hi =>
    Nat.lt_of_not_le (mt (ceilDiv_le_iff_le_mul hpos).mpr (Nat.not_le.mpr hi))
  refine ⟨?_, fun i hi => ?_, fun i _ => ?_, fun i hi => ?_⟩
  · have hwhole := flatMap_dataFrames size plaintext
    rwa [dataFrames_eq_map hsize, List.flatMap_map] at hwhole
  · have hbefore := hlt hi
    rw [← List.length_pos_iff, length_pieceAt, Nat.mul_comm]
    omega
  · rw [length_pieceAt]
    exact Nat.min_le_left ..
  · have hbefore := hlt hi
    rw [Nat.mul_succ] at hbefore
    rw [length_pieceAt, Nat.mul_comm]
    omega

end AeadStream.Pipe
