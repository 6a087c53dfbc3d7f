import AeadStream.Bytes

/-!
# BLAKE2b

The hash with digests of one to sixty-four bytes. Its core mixes a four by four matrix of
64-bit words: first the columns, then the diagonals. The same core, with another mixing of four
words, fills the memory of the password hash.
-/

namespace AeadStream

/-- **A four by four matrix** of 64-bit words, row by row. -/
structure Matrix64 where
  x0 : UInt64
  x1 : UInt64
  x2 : UInt64
  x3 : UInt64
  x4 : UInt64
  x5 : UInt64
  x6 : UInt64
  x7 : UInt64
  x8 : UInt64
  x9 : UInt64
  x10 : UInt64
  x11 : UInt64
  x12 : UInt64
  x13 : UInt64
  x14 : UInt64
  x15 : UInt64

namespace Matrix64

/-- The matrix of zeros. -/
def zero : Matrix64 := ⟨0, 0, 0, 0, 0, 0, 0, 0, 0, 0, 0, 0, 0, 0, 0, 0⟩

instance : Inhabited Matrix64 := ⟨zero⟩

/-- The matrix with the first sixteen of the given words, and zeros if there are fewer. -/
def ofWords (words : List UInt64) : Matrix64 :=
  let w := words.toArray
  ⟨w.getD 0 0, w.getD 1 0, w.getD 2 0, w.getD 3 0, w.getD 4 0, w.getD 5 0, w.getD 6 0, w.getD 7 0,
   w.getD 8 0, w.getD 9 0, w.getD 10 0, w.getD 11 0, w.getD 12 0, w.getD 13 0, w.getD 14 0,
   w.getD 15 0⟩

/-- The words, row by row. -/
def words (m : Matrix64) : List UInt64 :=
  [m.x0, m.x1, m.x2, m.x3, m.x4, m.x5, m.x6, m.x7,
   m.x8, m.x9, m.x10, m.x11, m.x12, m.x13, m.x14, m.x15]

/-- Word by word exclusive or. -/
def xor (s t : Matrix64) : Matrix64 :=
  ⟨s.x0 ^^^ t.x0, s.x1 ^^^ t.x1, s.x2 ^^^ t.x2, s.x3 ^^^ t.x3,
   s.x4 ^^^ t.x4, s.x5 ^^^ t.x5, s.x6 ^^^ t.x6, s.x7 ^^^ t.x7,
   s.x8 ^^^ t.x8, s.x9 ^^^ t.x9, s.x10 ^^^ t.x10, s.x11 ^^^ t.x11,
   s.x12 ^^^ t.x12, s.x13 ^^^ t.x13, s.x14 ^^^ t.x14, s.x15 ^^^ t.x15⟩

/-- Rotation to the right. -/
@[inline] def rotr (x : UInt64) (n : UInt64) : UInt64 := x >>> n ||| x <<< (64 - n)

end Matrix64

namespace Blake2b

open Matrix64

/-- The initial words: those of the 64-bit hash of the SHA-2 family. -/
def initial : List UInt64 :=
  [0x6a09e667f3bcc908, 0xbb67ae8584caa73b, 0x3c6ef372fe94f82b, 0xa54ff53a5f1d36f1,
   0x510e527fade682d1, 0x9b05688c2b3e6c1f, 0x1f83d9abfb41bd6b, 0x5be0cd19137e2179]

/-- The order in which a round takes the words of the block. -/
def orders : List (List Nat) :=
  [[0, 1, 2, 3, 4, 5, 6, 7, 8, 9, 10, 11, 12, 13, 14, 15],
   [14, 10, 4, 8, 9, 15, 13, 6, 1, 12, 0, 2, 11, 7, 5, 3],
   [11, 8, 12, 0, 5, 2, 15, 13, 10, 14, 3, 6, 7, 1, 9, 4],
   [7, 9, 3, 1, 13, 12, 11, 14, 2, 6, 5, 10, 4, 0, 15, 8],
   [9, 0, 5, 7, 2, 4, 10, 15, 14, 1, 11, 12, 6, 8, 3, 13],
   [2, 12, 6, 10, 0, 11, 8, 3, 4, 13, 7, 5, 15, 14, 1, 9],
   [12, 5, 1, 15, 14, 13, 4, 10, 0, 7, 6, 3, 9, 2, 8, 11],
   [13, 11, 7, 14, 12, 1, 3, 9, 5, 0, 15, 4, 8, 6, 2, 10],
   [6, 15, 14, 9, 11, 3, 0, 8, 12, 2, 13, 7, 1, 4, 10, 5],
   [10, 2, 8, 4, 7, 6, 1, 5, 15, 11, 9, 14, 3, 12, 13, 0]]

/-- Mixes four words with two words of the block. -/
@[inline] def mix (a b c d x y : UInt64) : UInt64 × UInt64 × UInt64 × UInt64 :=
  let a := a + b + x
  let d := rotr (d ^^^ a) 32
  let c := c + d
  let b := rotr (b ^^^ c) 24
  let a := a + b + y
  let d := rotr (d ^^^ a) 16
  let c := c + d
  let b := rotr (b ^^^ c) 63
  (a, b, c, d)

/-- One round, with the words of the block in this round's order. -/
def round (s m : Matrix64) : Matrix64 :=
  let (a0, a4, a8, a12) := mix s.x0 s.x4 s.x8 s.x12 m.x0 m.x1
  let (a1, a5, a9, a13) := mix s.x1 s.x5 s.x9 s.x13 m.x2 m.x3
  let (a2, a6, a10, a14) := mix s.x2 s.x6 s.x10 s.x14 m.x4 m.x5
  let (a3, a7, a11, a15) := mix s.x3 s.x7 s.x11 s.x15 m.x6 m.x7
  let (b0, b5, b10, b15) := mix a0 a5 a10 a15 m.x8 m.x9
  let (b1, b6, b11, b12) := mix a1 a6 a11 a12 m.x10 m.x11
  let (b2, b7, b8, b13) := mix a2 a7 a8 a13 m.x12 m.x13
  let (b3, b4, b9, b14) := mix a3 a4 a9 a14 m.x14 m.x15
  ⟨b0, b1, b2, b3, b4, b5, b6, b7, b8, b9, b10, b11, b12, b13, b14, b15⟩

/-- Mixes a block into the eight chained words. `count` is the number of message bytes up to its
end, and the last block is marked. -/
def compress (chain : List UInt64) (block : Bytes) (count : Nat) (last : Bool) : List UInt64 :=
  let words := (leWords64 block).toArray
  let marked : List UInt64 :=
    [UInt64.ofNat count, UInt64.ofNat (count / UInt64.size), if last then 0xffffffffffffffff else 0, 0]
  let tail := initial.take 4 ++ List.zipWith (· ^^^ ·) (initial.drop 4) marked
  let start := ofWords (chain ++ tail)
  let ordered := (orders ++ orders.take 2).map fun order =>
    ofWords (order.map fun i => words.getD i 0)
  let mixed := (ordered.foldl round start).words
  List.zipWith (· ^^^ ·) chain (List.zipWith (· ^^^ ·) (mixed.take 8) (mixed.drop 8))

/-- The chained words after the given pieces of the message, the first of which begins at
`count`. -/
def absorb (chain : List UInt64) (count : Nat) : List Bytes → List UInt64
  | [] => chain
  | [last] =>
    compress chain (Octets.padded 128 last).bytes (count + last.length) true
  | piece :: rest => absorb (compress chain piece (count + 128) false) (count + 128) rest

/-- **The digest** of `size` bytes, at most sixty-four. The size is mixed in at the start, so
digests of different sizes have nothing in common. -/
def digest (size : Nat) (message : Bytes) : Octets size :=
  let start := List.zipWith (· ^^^ ·) initial [0x01010000 ^^^ UInt64.ofNat size, 0, 0, 0, 0, 0, 0, 0]
  let blocks := if message.isEmpty then [[]] else pieces 128 message
  .padded size ((absorb start 0 blocks).flatMap fun w => leBytes 8 w.toNat)

end Blake2b

end AeadStream
