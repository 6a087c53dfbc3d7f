/-!
# Bytes

Everything the library reads, writes, hashes or encrypts is a finite sequence of
bytes. `Bytes` is the plain list; `Octets n` are bytes whose number is part of the
type, for keys, nonces and digests. Numbers go in and out in either byte order.

* `xorBytes_xorBytes` — masking twice with the same bytes changes nothing;
* `flatten_pieces` — cutting into pieces loses nothing.
-/

namespace AeadStream

/-- A finite sequence of bytes. -/
abbrev Bytes := List UInt8

/-! ## Bytes of a fixed number -/

/-- **Octets.** Bytes whose number is fixed by the type. -/
structure Octets (n : Nat) where
  /-- the bytes themselves -/
  bytes : Bytes
  /-- there are exactly `n` of them -/
  length_bytes : bytes.length = n
deriving DecidableEq

namespace Octets

/-- Octets are determined by their bytes. -/
theorem ext {n : Nat} : ∀ {a b : Octets n}, a.bytes = b.bytes → a = b
  | ⟨_, _⟩, ⟨_, _⟩, rfl => rfl

attribute [simp] length_bytes

/-- `n` zero bytes, what is left of a key that was wiped. -/
def zero (n : Nat) : Octets n := ⟨List.replicate n 0, List.length_replicate⟩

/-- The given bytes, if there are exactly `n`. -/
def ofBytes? (n : Nat) (bytes : Bytes) : Option (Octets n) :=
  if h : bytes.length = n then some ⟨bytes, h⟩ else none

/-- The first `m` of `n` octets. -/
def take {n : Nat} (o : Octets n) (m : Nat) (h : m ≤ n) : Octets m :=
  ⟨o.bytes.take m, by rw [List.length_take, o.length_bytes]; exact Nat.min_eq_left h⟩

/-- The first `n` of the given bytes, filled up with zeros if there are fewer. -/
def padded (n : Nat) (bytes : Bytes) : Octets n :=
  ⟨(bytes ++ List.replicate n 0).take n, by simp⟩

instance {n : Nat} : Inhabited (Octets n) := ⟨zero n⟩

theorem ofBytes?_bytes {n : Nat} (o : Octets n) : ofBytes? n o.bytes = some o := by
  simp [ofBytes?]

end Octets

/-! ## Numbers as bytes -/

/-- The `n` lowest bytes of a number, the least significant first. -/
def leBytes : Nat → Nat → Bytes
  | 0, _ => []
  | n + 1, v => UInt8.ofNat v :: leBytes n (v / 256)

/-- The `n` lowest bytes of a number, the most significant first. -/
def beBytes (n v : Nat) : Bytes := (leBytes n v).reverse

/-- The number whose bytes are given, the least significant first. -/
def natOfLe (bytes : Bytes) : Nat := bytes.foldr (fun b v => b.toNat + 256 * v) 0

/-- The number whose bytes are given, the most significant first. -/
def natOfBe (bytes : Bytes) : Nat := bytes.foldl (fun v b => 256 * v + b.toNat) 0

@[simp] theorem length_leBytes (n v : Nat) : (leBytes n v).length = n := by
  induction n generalizing v with
  | zero => rfl
  | succ n ih => simp [leBytes, ih]

@[simp] theorem length_beBytes (n v : Nat) : (beBytes n v).length = n := by
  simp [beBytes]

/-- Either order is the reverse of the other. -/
theorem natOfBe_reverse (bytes : Bytes) : natOfBe bytes.reverse = natOfLe bytes := by
  simp only [natOfBe, natOfLe, List.foldl_reverse]
  congr 1
  funext b v
  exact Nat.add_comm _ _

/-! ## Combining and cutting -/

/-- Byte by byte exclusive or, as long as the shorter of the two. -/
def xorBytes (a b : Bytes) : Bytes := a.zipWith (· ^^^ ·) b

/-- The same mask twice leaves the bytes as they were. -/
theorem xorBytes_xorBytes {a b : Bytes} (h : a.length ≤ b.length) :
    xorBytes (xorBytes a b) b = a := by
  induction a generalizing b with
  | nil => rfl
  | cons x xs ih =>
    cases b with
    | nil => simp at h
    | cons y ys =>
      have hxy : x ^^^ y ^^^ y = x := by rw [UInt8.xor_assoc, UInt8.xor_self, UInt8.xor_zero]
      have hrest : xorBytes (xorBytes xs ys) ys = xs := ih (by simpa using h)
      simp only [xorBytes, List.zipWith_cons_cons, hxy] at hrest ⊢
      rw [hrest]

/-- The consecutive pieces of `size` elements; only the last may be shorter and none is
empty. A size of zero counts as one. -/
def pieces {α : Type} (size : Nat) : List α → List (List α)
  | [] => []
  | x :: xs => (x :: xs.take (size - 1)) :: pieces size (xs.drop (size - 1))
termination_by xs => xs.length
decreasing_by simp only [List.length_drop, List.length_cons]; omega

theorem flatten_pieces {α : Type} (size : Nat) (xs : List α) :
    (pieces size xs).flatten = xs := by
  fun_induction pieces size xs with
  | case1 => rfl
  | case2 x xs ih => simp [ih]

/-- The 32-bit words that the bytes hold, the least significant byte first. -/
def leWords32 (bytes : Bytes) : List UInt32 :=
  (pieces 4 bytes).map fun w => UInt32.ofNat (natOfLe w)

/-- The 64-bit words that the bytes hold, the least significant byte first. -/
def leWords64 (bytes : Bytes) : List UInt64 :=
  (pieces 8 bytes).map fun w => UInt64.ofNat (natOfLe w)

end AeadStream
