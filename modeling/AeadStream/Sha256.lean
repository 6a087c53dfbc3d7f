import AeadStream.Bytes

/-!
# SHA-256

The 256-bit hash of the SHA-2 family. A message is padded to whole 64-byte blocks; each block is
expanded to 64 words and mixed into a state of eight words.
-/

namespace AeadStream.Sha256

/-- The round constants: the first 32 bits of the fractional parts of the cube roots of the
first 64 primes. -/
def roundConstants : List UInt32 :=
  [0x428a2f98, 0x71374491, 0xb5c0fbcf, 0xe9b5dba5, 0x3956c25b, 0x59f111f1, 0x923f82a4, 0xab1c5ed5,
   0xd807aa98, 0x12835b01, 0x243185be, 0x550c7dc3, 0x72be5d74, 0x80deb1fe, 0x9bdc06a7, 0xc19bf174,
   0xe49b69c1, 0xefbe4786, 0x0fc19dc6, 0x240ca1cc, 0x2de92c6f, 0x4a7484aa, 0x5cb0a9dc, 0x76f988da,
   0x983e5152, 0xa831c66d, 0xb00327c8, 0xbf597fc7, 0xc6e00bf3, 0xd5a79147, 0x06ca6351, 0x14292967,
   0x27b70a85, 0x2e1b2138, 0x4d2c6dfc, 0x53380d13, 0x650a7354, 0x766a0abb, 0x81c2c92e, 0x92722c85,
   0xa2bfe8a1, 0xa81a664b, 0xc24b8b70, 0xc76c51a3, 0xd192e819, 0xd6990624, 0xf40e3585, 0x106aa070,
   0x19a4c116, 0x1e376c08, 0x2748774c, 0x34b0bcb5, 0x391c0cb3, 0x4ed8aa4a, 0x5b9cca4f, 0x682e6ff3,
   0x748f82ee, 0x78a5636f, 0x84c87814, 0x8cc70208, 0x90befffa, 0xa4506ceb, 0xbef9a3f7, 0xc67178f2]

/-- The eight words that the hash carries from block to block. -/
structure State where
  a : UInt32
  b : UInt32
  c : UInt32
  d : UInt32
  e : UInt32
  f : UInt32
  g : UInt32
  h : UInt32

/-- The first 32 bits of the fractional parts of the square roots of the first eight
primes. -/
def State.initial : State :=
  ⟨0x6a09e667, 0xbb67ae85, 0x3c6ef372, 0xa54ff53a, 0x510e527f, 0x9b05688c, 0x1f83d9ab, 0x5be0cd19⟩

/-- Word by word sum. -/
def State.add (s t : State) : State :=
  ⟨s.a + t.a, s.b + t.b, s.c + t.c, s.d + t.d, s.e + t.e, s.f + t.f, s.g + t.g, s.h + t.h⟩

/-- The words of the state, most significant byte first. -/
def State.toOctets (s : State) : Octets 32 :=
  ⟨[s.a, s.b, s.c, s.d, s.e, s.f, s.g, s.h].flatMap fun w => beBytes 4 w.toNat, by simp⟩

/-- Rotation to the right. -/
@[inline] def rotr (x : UInt32) (n : UInt32) : UInt32 := x >>> n ||| x <<< (32 - n)

/-- The sixteen words of a block expanded to 64. -/
def schedule (block : Bytes) : Array UInt32 :=
  let words := (pieces 4 block).map fun w => UInt32.ofNat (natOfBe w)
  (List.range 48).foldl
    (fun w t =>
      let x := w.getD (t + 1) 0
      let y := w.getD (t + 14) 0
      let s0 := rotr x 7 ^^^ rotr x 18 ^^^ x >>> 3
      let s1 := rotr y 17 ^^^ rotr y 19 ^^^ y >>> 10
      w.push (w.getD t 0 + s0 + w.getD (t + 9) 0 + s1))
    words.toArray

/-- One of the 64 rounds, with its constant and its schedule word. -/
def round (s : State) (k w : UInt32) : State :=
  let s1 := rotr s.e 6 ^^^ rotr s.e 11 ^^^ rotr s.e 25
  let choice := (s.e &&& s.f) ^^^ ((~~~s.e) &&& s.g)
  let t1 := s.h + s1 + choice + k + w
  let s0 := rotr s.a 2 ^^^ rotr s.a 13 ^^^ rotr s.a 22
  let majority := (s.a &&& s.b) ^^^ (s.a &&& s.c) ^^^ (s.b &&& s.c)
  ⟨t1 + (s0 + majority), s.a, s.b, s.c, s.d + t1, s.e, s.f, s.g⟩

/-- Mixes one 64-byte block into the state. -/
def compress (s : State) (block : Bytes) : State :=
  let mixed := (roundConstants.zip (schedule block).toList).foldl (fun s kw => round s kw.1 kw.2) s
  s.add mixed

/-- What follows a message: a one bit, the fewest zeros that fill a block, and the number of
message bits in eight bytes. -/
def padding (length : Nat) : Bytes :=
  0x80 :: (List.replicate ((119 - length % 64) % 64) 0 ++ beBytes 8 (8 * length))

/-- **The digest** of a message. -/
def digest (message : Bytes) : Octets 32 :=
  ((pieces 64 (message ++ padding message.length)).foldl compress State.initial).toOctets

end AeadStream.Sha256
