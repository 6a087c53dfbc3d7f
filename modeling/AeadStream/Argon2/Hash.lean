import AeadStream.Argon2.Block

/-!
# The password hash Argon2id

A password is hashed by filling a memory of blocks, several times over, in such a way that each
block depends on its predecessor and on another block of the memory. In the first half of the
first pass that other block is chosen by position alone, afterwards by the content of the
predecessor.

The memory is a table with a row for each lane. A pass goes through it in four slices, and the
part of a lane in one slice is a segment.
-/

namespace AeadStream.Argon2

/-- **The costs** of a hash. -/
structure Costs where
  /-- memory, in blocks of one KiB -/
  memory : UInt32 := 65536
  /-- passes over the memory -/
  passes : UInt32 := 3
  /-- rows of the memory -/
  lanes : UInt32 := 1
deriving DecidableEq

namespace Costs

/-- Why costs are too low for the hash to be defined. -/
inductive Fault
  | memory
  | passes
  | lanes
deriving DecidableEq

/-- The wording. -/
def Fault.message : Fault → String
  | memory => "memory cost is too small"
  | passes => "time cost is too small"
  | lanes => "not enough threads"

/-- The fault of costs for which the hash is not defined: each lane needs eight blocks. -/
def fault? (c : Costs) : Option Fault :=
  if c.memory < 8 ∨ c.memory.toNat < 8 * c.lanes.toNat then some .memory
  else if c.passes = 0 then some .passes
  else if c.lanes = 0 then some .lanes
  else none

/-- Blocks in a segment. -/
def segment (c : Costs) : Nat := c.memory.toNat / (4 * c.lanes.toNat)

/-- Blocks in a lane. -/
def columns (c : Costs) : Nat := 4 * c.segment

/-- Blocks in the whole memory: the costs rounded down so that all segments are equal. -/
def blocks (c : Costs) : Nat := c.lanes.toNat * c.columns

end Costs

/-! ## Hashing to any length -/

/-- `count` chained digests of 64 bytes, of which the first 32 bytes each are kept, and a last
one of `size` bytes. -/
def longTail (size : Nat) : Nat → Bytes → Bytes
  | 0, chained => (Blake2b.digest size chained).bytes
  | count + 1, chained =>
    let next := (Blake2b.digest 64 chained).bytes
    next.take 32 ++ longTail size count next

/-- The hash to any number of bytes. -/
def longHash (size : Nat) (message : Bytes) : Bytes :=
  let sized := leBytes 4 size ++ message
  if size ≤ 64 then
    (Blake2b.digest size sized).bytes
  else
    let halves := (size + 31) / 32 - 2
    longTail (size - 32 * halves) halves sized

/-- The hash of all that goes in, each text after its length. The numbers between are the
length of the result, the version of the algorithm and its variant, and at the end stand two
texts that are not used. -/
def seed (costs : Costs) (password salt : Bytes) : Octets 64 :=
  Blake2b.digest 64
    (leBytes 4 costs.lanes.toNat ++ leBytes 4 32 ++ leBytes 4 costs.memory.toNat ++
      leBytes 4 costs.passes.toNat ++ leBytes 4 0x13 ++ leBytes 4 2 ++
      (leBytes 4 password.length ++ password) ++ (leBytes 4 salt.length ++ salt) ++
      leBytes 4 0 ++ leBytes 4 0)

/-! ## Choosing the other block -/

/-- The place in the order of filling: a pass, a slice, a lane, and a block of the segment. -/
structure Place where
  pass : Nat
  slice : Nat
  lane : Nat
  index : Nat

namespace Place

variable (c : Costs) (p : Place)

/-- The other block is chosen by position alone. -/
def isIndependent : Bool := p.pass = 0 && p.slice < 2

/-- The column of the place. -/
def column : Nat := p.slice * c.segment + p.index

/-- How many blocks may be chosen, in the lane of the place or in another one: those that are
filled and not of this slice of another lane, less the predecessor. -/
def choices (sameLane : Bool) : Nat :=
  let complete := (if p.pass = 0 then p.slice else 3) * c.segment
  if sameLane then complete + p.index - 1
  else if p.index = 0 then complete - 1 else complete

/-- The column at which the choice starts: the oldest that is still there. -/
def oldest : Nat :=
  if p.pass = 0 ∨ p.slice = 3 then 0 else (p.slice + 1) * c.segment

/-- The lane and the column of the other block, for a pseudorandom word. Newer blocks are
chosen more often. -/
def other (word : UInt64) : Nat × Nat :=
  let lane :=
    if p.pass = 0 ∧ p.slice = 0 then p.lane else (word >>> 32).toNat % c.lanes.toNat
  let choices := p.choices c (lane = p.lane)
  let j := word &&& 0xffffffff
  let back := (UInt64.ofNat choices * ((j * j) >>> 32)) >>> 32
  (lane, (p.oldest c + (choices - 1 - back.toNat)) % c.columns)

end Place

/-- The pseudorandom words of a segment that is filled by position alone. -/
def positionWords (c : Costs) (p : Place) : Array UInt64 :=
  let numbered (i : Nat) : Block :=
    Block.ofWords
      ([p.pass, p.lane, p.slice, c.blocks, c.passes.toNat, 2, i + 1].map UInt64.ofNat)
  let addresses (i : Nat) : Block := .combine .zero (.combine .zero (numbered i))
  ((List.range ((c.segment + 127) / 128)).flatMap fun i => (addresses i).words).toArray

/-! ## Filling the memory -/

/-- The memory, lane after lane. -/
abbrev Memory := Array Block

/-- Fills one place. After the first pass the old content stays mixed in. -/
def fillPlace (c : Costs) (words : Array UInt64) (p : Place) (memory : Memory) : Memory :=
  let start := p.lane * c.columns
  let here := start + p.column c
  let before := start + (p.column c + c.columns - 1) % c.columns
  let previous := memory.getD before .zero
  let word := if p.isIndependent then words.getD p.index 0 else previous.r0.x0
  let (lane, column) := p.other c word
  let combined := previous.combine (memory.getD (lane * c.columns + column) .zero)
  let content := if p.pass = 0 then combined else combined.xor (memory.getD here .zero)
  memory.setIfInBounds here content

/-- Fills one segment. The first two blocks of a lane are there from the start. -/
def fillSegment (c : Costs) (p : Place) (memory : Memory) : Memory :=
  let words := if p.isIndependent then positionWords c p else #[]
  let first := if p.pass = 0 ∧ p.slice = 0 then 2 else 0
  (List.range' first (c.segment - first)).foldl
    (fun memory index => fillPlace c words { p with index } memory) memory

/-- Fills the whole memory, in all passes. -/
def fill (c : Costs) (memory : Memory) : Memory :=
  let segments :=
    (List.range c.passes.toNat).flatMap fun pass =>
      (List.range 4).flatMap fun slice =>
        (List.range c.lanes.toNat).map fun lane => { pass, slice, lane, index := 0 : Place }
  segments.foldl (fun memory place => fillSegment c place memory) memory

/-- The memory with the first two blocks of each lane. -/
def start (c : Costs) (seed : Octets 64) : Memory :=
  (List.range c.lanes.toNat).foldl
    (fun memory lane =>
      let block (column : Nat) : Block :=
        .ofBytes (longHash 1024 (seed.bytes ++ leBytes 4 column ++ leBytes 4 lane))
      (memory.setIfInBounds (lane * c.columns) (block 0)).setIfInBounds
        (lane * c.columns + 1) (block 1))
    (Array.replicate c.blocks .zero)

/-- **The hash** of a password with a salt: the last blocks of all lanes together, as thirty-two
bytes. -/
def hash (c : Costs) (password salt : Bytes) : Octets 32 :=
  let memory := fill c (start c (seed c password salt))
  let last := (List.range c.lanes.toNat).foldl
    (fun sum lane => sum.xor (memory.getD ((lane + 1) * c.columns - 1) .zero)) Block.zero
  .padded 32 (longHash 32 last.bytes)

end AeadStream.Argon2
