import AeadStream.ChaCha20

/-!
# Sources of random bytes

Randomness is a value that is handed on: each draw gives the bytes, or the reason why there are
none, and the source as it is afterwards. Nothing in the library depends on which source it is
given. Three are at hand: `Generator` is determined by its seed, `Tape` holds bytes that were
drawn before, and `Rationed` is another source that fails after some draws.
-/

namespace AeadStream

/-- **A source of random bytes.** -/
class Entropy (ρ : Type) where
  /-- the next `n` bytes, or why there are none, and the source afterwards -/
  draw : ρ → (n : Nat) → Except String (Octets n) × ρ

/-! ## Bytes from a seed -/

/-- **The seeded generator:** a keystream and the number of its words that were used up. -/
structure Generator where
  key : Octets 32
  used : Nat

namespace Generator

/-- The first eight outputs of a small generator of words, as the key of the large one. -/
def seedWords : Nat → UInt64 → List UInt32
  | 0, _ => []
  | n + 1, state =>
    let state := state * 6364136223846793005 + 11634580027462260723
    let x := (((state >>> 18) ^^^ state) >>> 27).toUInt32
    let turn := (state >>> 59).toUInt32
    (x >>> turn ||| x <<< ((32 - turn) % 32)) :: seedWords n state

/-- The generator for a seed. -/
def ofSeed (seed : UInt64) : Generator :=
  { key := .padded 32 ((seedWords 8 seed).flatMap fun w => leBytes 4 w.toNat), used := 0 }

/-- Block `i` of the keystream. The block number takes two words of the state. -/
def block (g : Generator) (i : Nat) : Octets 64 :=
  ChaCha20.blockOf (.ofKey g.key (UInt32.ofNat i) (UInt32.ofNat (i / UInt32.size)) 0 0)

/-- Draws whole words: the bytes of the last one that are not asked for are dropped. -/
def draw (g : Generator) (n : Nat) : Octets n × Generator :=
  let first := g.used / 16
  let skipped := 4 * (g.used % 16)
  let blocks := (skipped + n + 63) / 64
  let bytes := (List.range blocks).flatMap fun i => (g.block (first + i)).bytes
  (.padded n (bytes.drop skipped), { g with used := g.used + (n + 3) / 4 })

instance : Entropy Generator where
  draw g n := let (bytes, g) := g.draw n; (.ok bytes, g)

end Generator

/-! ## Bytes drawn before -/

/-- **A tape** of bytes that are handed out in their order. -/
structure Tape where
  bytes : Bytes

namespace Tape

/-- The next bytes of the tape, as long as there are enough. -/
def draw (t : Tape) (n : Nat) : Except String (Octets n) × Tape :=
  if h : n ≤ t.bytes.length then
    (.ok ⟨t.bytes.take n, by simp [h]⟩, ⟨t.bytes.drop n⟩)
  else
    (.error "no random bytes left", t)

instance : Entropy Tape := ⟨Tape.draw⟩

end Tape

/-! ## A limited number of draws -/

/-- **A rationed source** fails once its draws are used up; without a ration it never does. -/
structure Rationed (ρ : Type) where
  source : ρ
  ration : Option Nat := none
  reason : String := "entropy exhausted"

namespace Rationed

variable {ρ : Type} [Entropy ρ]

/-- A draw of any length, also of no bytes, counts as one. -/
def draw (r : Rationed ρ) (n : Nat) : Except String (Octets n) × Rationed ρ :=
  match r.ration with
  | some 0 => (.error r.reason, r)
  | ration =>
    let (drawn, source) := Entropy.draw r.source n
    (drawn, { r with source, ration := ration.map (· - 1) })

instance : Entropy (Rationed ρ) := ⟨Rationed.draw⟩

end Rationed

end AeadStream
