import AeadStream.Blake2b

/-!
# Blocks of the password hash

The memory of the password hash is cut into blocks of 1024 bytes, seen as eight rows of sixteen
words. Two blocks are combined by mixing the rows of their exclusive or, then its columns, where
a column takes a pair of words from each row; so the columns are the rows of the transposed
block.
-/

namespace AeadStream.Argon2

open Matrix64

/-- **A block:** eight rows of sixteen words. -/
structure Block where
  r0 : Matrix64
  r1 : Matrix64
  r2 : Matrix64
  r3 : Matrix64
  r4 : Matrix64
  r5 : Matrix64
  r6 : Matrix64
  r7 : Matrix64

namespace Block

/-- The block of zeros. -/
def zero : Block :=
  ⟨.zero, .zero, .zero, .zero, .zero, .zero, .zero, .zero⟩

instance : Inhabited Block := ⟨zero⟩

/-- The block whose bytes are given, least significant byte first in each word. -/
def ofBytes (bytes : Bytes) : Block :=
  let rows := ((pieces 128 bytes).map fun row => ofWords (leWords64 row)).toArray
  ⟨rows.getD 0 .zero, rows.getD 1 .zero, rows.getD 2 .zero, rows.getD 3 .zero,
   rows.getD 4 .zero, rows.getD 5 .zero, rows.getD 6 .zero, rows.getD 7 .zero⟩

/-- The block that starts with the given words, at most sixteen, and holds zeros after them. -/
def ofWords (words : List UInt64) : Block := { zero with r0 := .ofWords words }

/-- The words, row by row. -/
def words (b : Block) : List UInt64 :=
  b.r0.words ++ b.r1.words ++ b.r2.words ++ b.r3.words ++
    b.r4.words ++ b.r5.words ++ b.r6.words ++ b.r7.words

/-- The bytes of the block. -/
def bytes (b : Block) : Bytes := b.words.flatMap fun w => leBytes 8 w.toNat

/-- Word by word exclusive or. -/
def xor (a b : Block) : Block :=
  ⟨a.r0.xor b.r0, a.r1.xor b.r1, a.r2.xor b.r2, a.r3.xor b.r3,
   a.r4.xor b.r4, a.r5.xor b.r5, a.r6.xor b.r6, a.r7.xor b.r7⟩

/-- Pair `j` of row `i` becomes pair `i` of row `j`. -/
def transpose (b : Block) : Block :=
  let ⟨p, q, r, s, t, u, v, w⟩ := b
  ⟨⟨p.x0, p.x1, q.x0, q.x1, r.x0, r.x1, s.x0, s.x1,
    t.x0, t.x1, u.x0, u.x1, v.x0, v.x1, w.x0, w.x1⟩,
   ⟨p.x2, p.x3, q.x2, q.x3, r.x2, r.x3, s.x2, s.x3,
    t.x2, t.x3, u.x2, u.x3, v.x2, v.x3, w.x2, w.x3⟩,
   ⟨p.x4, p.x5, q.x4, q.x5, r.x4, r.x5, s.x4, s.x5,
    t.x4, t.x5, u.x4, u.x5, v.x4, v.x5, w.x4, w.x5⟩,
   ⟨p.x6, p.x7, q.x6, q.x7, r.x6, r.x7, s.x6, s.x7,
    t.x6, t.x7, u.x6, u.x7, v.x6, v.x7, w.x6, w.x7⟩,
   ⟨p.x8, p.x9, q.x8, q.x9, r.x8, r.x9, s.x8, s.x9,
    t.x8, t.x9, u.x8, u.x9, v.x8, v.x9, w.x8, w.x9⟩,
   ⟨p.x10, p.x11, q.x10, q.x11, r.x10, r.x11, s.x10, s.x11,
    t.x10, t.x11, u.x10, u.x11, v.x10, v.x11, w.x10, w.x11⟩,
   ⟨p.x12, p.x13, q.x12, q.x13, r.x12, r.x13, s.x12, s.x13,
    t.x12, t.x13, u.x12, u.x13, v.x12, v.x13, w.x12, w.x13⟩,
   ⟨p.x14, p.x15, q.x14, q.x15, r.x14, r.x15, s.x14, s.x15,
    t.x14, t.x15, u.x14, u.x15, v.x14, v.x15, w.x14, w.x15⟩⟩

/-- The sum of two words and twice the product of their lower halves. -/
@[inline] def blend (a b : UInt64) : UInt64 :=
  a + b + 2 * (a.toUInt32.toUInt64 * b.toUInt32.toUInt64)

/-- Mixes four words. -/
@[inline] def mix (a b c d : UInt64) : UInt64 × UInt64 × UInt64 × UInt64 :=
  let a := blend a b
  let d := rotr (d ^^^ a) 32
  let c := blend c d
  let b := rotr (b ^^^ c) 24
  let a := blend a b
  let d := rotr (d ^^^ a) 16
  let c := blend c d
  let b := rotr (b ^^^ c) 63
  (a, b, c, d)

/-- Mixes the columns of a row seen as a matrix, then its diagonals. -/
def mixRow (s : Matrix64) : Matrix64 :=
  let (a0, a4, a8, a12) := mix s.x0 s.x4 s.x8 s.x12
  let (a1, a5, a9, a13) := mix s.x1 s.x5 s.x9 s.x13
  let (a2, a6, a10, a14) := mix s.x2 s.x6 s.x10 s.x14
  let (a3, a7, a11, a15) := mix s.x3 s.x7 s.x11 s.x15
  let (b0, b5, b10, b15) := mix a0 a5 a10 a15
  let (b1, b6, b11, b12) := mix a1 a6 a11 a12
  let (b2, b7, b8, b13) := mix a2 a7 a8 a13
  let (b3, b4, b9, b14) := mix a3 a4 a9 a14
  ⟨b0, b1, b2, b3, b4, b5, b6, b7, b8, b9, b10, b11, b12, b13, b14, b15⟩

/-- Mixes every row. -/
def mixRows (b : Block) : Block :=
  ⟨mixRow b.r0, mixRow b.r1, mixRow b.r2, mixRow b.r3,
   mixRow b.r4, mixRow b.r5, mixRow b.r6, mixRow b.r7⟩

/-- **Two blocks combined:** their exclusive or, and that mixed by rows and by columns. -/
def combine (a b : Block) : Block :=
  let sum := a.xor b
  sum.mixRows.transpose.mixRows.transpose.xor sum

end Block

end AeadStream.Argon2
