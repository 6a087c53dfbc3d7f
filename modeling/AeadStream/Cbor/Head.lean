import AeadStream.Text.Decimal
import AeadStream.Text.Quoted
import AeadStream.Text.Utf8

/-!
# Heads of CBOR items

Every CBOR item starts with a head: a byte that holds the major type and either the argument or
the number of bytes that follow with it. A head is read at a cursor, which knows where in the
input it stands.

* `Cursor.take_ok`, `Head.read_ok` — what is read was next, so whatever reads heads comes to an
  end.
-/

namespace AeadStream.Cbor

/-! ## Heads -/

/-- **A head.** Lengths are missing for items that go on until a break. -/
inductive Head
  | unsigned (n : Nat)
  /-- the number `-1 - n` -/
  | negative (n : Nat)
  | bytes (length : Option Nat)
  | text (length : Option Nat)
  | array (length : Option Nat)
  | map (length : Option Nat)
  | tag (number : Nat)
  | simple (number : Nat)
  | float (value : Text.Binary64)
  | break
deriving DecidableEq

namespace Head

/-- A number below `2 ^ 64` read as a number with a sign. -/
def signed64 (n : Nat) : Int := if n < 0x8000000000000000 then n else (n : Int) - UInt64.size

/-- What an item is called where another one should be. A negative number is computed in 64
bits, so it is wrong below the least of them. -/
def found : Head → String
  | unsigned n => s!"integer `{n}`"
  | negative n => s!"integer `{-1 - signed64 n}`"
  | bytes _ => "bytes"
  | text _ => "string"
  | array _ => "sequence"
  | map _ => "map"
  | tag _ => "tag"
  | simple 20 => "boolean `false`"
  | simple 21 => "boolean `true`"
  | simple 22 => "null"
  | simple 23 => "undefined"
  | simple _ => "simple"
  | float value => s!"floating point `{Text.decimal value}`"
  | «break» => "break"

end Head

/-! ## Faults -/

/-- **Why an item was refused.** -/
inductive Fault
  /-- the input ended inside an item -/
  | endOfInput
  /-- the bytes at this place are not well-formed -/
  | malformed (offset : Nat)
  /-- another kind of item was expected -/
  | wrongKind (found : Head) (expected : String)
  /-- an integer is negative and must not be -/
  | negativeInteger
  /-- an integer does not fit -/
  | integerTooLarge
  /-- an integer given by its bytes has more than sixteen of them -/
  | bytesTooMany
  /-- a field occurs twice -/
  | duplicateField (name : String)
  /-- a field does not occur -/
  | missingField (name : String)
  /-- items are nested too deeply -/
  | tooDeep
deriving DecidableEq

namespace Fault

/-- The wording of a fault in the meaning of the items. -/
def semantic (text : String) : String := Text.application "Semantic" ["None", Text.quoted text]

/-- The wording. -/
def message : Fault → String
  | endOfInput =>
    let cause := Text.record "Error"
      [("kind", "UnexpectedEof"), ("message", Text.quoted "failed to fill whole buffer")]
    Text.application "Io" [cause]
  | malformed offset => Text.application "Syntax" [toString offset]
  | wrongKind found expected => semantic s!"invalid type: {found.found}, expected {expected}"
  | negativeInteger => semantic "unexpected negative integer"
  | integerTooLarge => semantic "integer too large"
  | bytesTooMany => semantic "bigint too large"
  | duplicateField name => semantic s!"duplicate field `{name}`"
  | missingField name => semantic s!"missing field `{name}`"
  | tooDeep => "RecursionLimitExceeded"

end Fault

/-! ## Cursors -/

/-- **A place in the input.** -/
structure Cursor where
  /-- the bytes from here on -/
  rest : Bytes
  /-- the number of bytes before -/
  offset : Nat := 0
deriving DecidableEq

namespace Cursor

/-- The place behind the next `n` bytes. -/
def skip (c : Cursor) (n : Nat) : Cursor := { rest := c.rest.drop n, offset := c.offset + n }

/-- The next `n` bytes. -/
def take (c : Cursor) (n : Nat) : Except Fault (Bytes × Cursor) :=
  let got := c.rest.take n
  if got.length < n then .error .endOfInput else .ok (got, c.skip n)

theorem take_ok {c d : Cursor} {n : Nat} {got : Bytes} (h : c.take n = .ok (got, d)) :
    c.rest = got ++ d.rest ∧ got.length = n := by
  unfold take at h
  dsimp only at h
  split at h
  · exact absurd h nofun
  · rename_i hlen
    obtain ⟨rfl, rfl⟩ := Prod.mk.inj (Except.ok.inj h)
    refine ⟨(List.take_append_drop _ _).symm, ?_⟩
    have := List.length_take_le n c.rest
    omega

/-- The argument that the low bits of a head's first byte announce; none if they announce an item
without length. The head starts at `start`. -/
def argument (c : Cursor) (start info : Nat) : Except Fault (Option Nat × Cursor) :=
  if info < 24 then .ok (some info, c)
  else if info < 28 then
    match c.take (1 <<< (info - 24)) with
    | .error fault => .error fault
    | .ok (bytes, c) => .ok (some (natOfBe bytes), c)
  else if info < 31 then .error (.malformed start)
  else .ok (none, c)

theorem argument_ok {c d : Cursor} {start info : Nat} {n : Option Nat}
    (h : c.argument start info = .ok (n, d)) : d.rest.length ≤ c.rest.length := by
  unfold argument at h
  split at h
  · obtain ⟨-, rfl⟩ := Prod.mk.inj (Except.ok.inj h); exact Nat.le_refl _
  · split at h
    · split at h
      · exact absurd h nofun
      · rename_i ht
        obtain ⟨-, rfl⟩ := Prod.mk.inj (Except.ok.inj h)
        simp [(take_ok ht).1]
    · split at h
      · exact absurd h nofun
      · obtain ⟨-, rfl⟩ := Prod.mk.inj (Except.ok.inj h); exact Nat.le_refl _

end Cursor

/-! ## Reading heads -/

namespace Head

/-- The head of the given major type, low bits and argument. Only items that hold others, texts
and byte strings may have no length; a simple item without one is a break. -/
def ofParts? (major info : Nat) (argument : Option Nat) : Option Head :=
  match major, argument with
  | 0, some n => some (unsigned n)
  | 1, some n => some (negative n)
  | 2, length => some (bytes length)
  | 3, length => some (text length)
  | 4, length => some (array length)
  | 5, length => some (map length)
  | 6, some n => some (tag n)
  | 7, none => some «break»
  | 7, some n =>
    match info with
    | 25 => some (float (.ofBits 10 5 n))
    | 26 => some (float (.ofBits 23 8 n))
    | 27 => some (float (.ofBits 52 11 n))
    | _ => some (simple n)
  | _, _ => none

/-- **Reading a head.** -/
def read (c : Cursor) : Except Fault (Head × Cursor) :=
  match c.rest with
  | [] => .error .endOfInput
  | b :: rest =>
    match Cursor.argument { rest, offset := c.offset + 1 } c.offset (b.toNat % 32) with
    | .error fault => .error fault
    | .ok (argument, d) =>
      match ofParts? (b.toNat / 32) (b.toNat % 32) argument with
      | none => .error (.malformed c.offset)
      | some head => .ok (head, d)

/-- A head is at least one byte. -/
theorem read_ok {c d : Cursor} {head : Head} (h : read c = .ok (head, d)) :
    d.rest.length < c.rest.length := by
  obtain ⟨rest, offset⟩ := c
  cases rest with
  | nil => exact absurd h nofun
  | cons b rest =>
    dsimp only [read] at h
    cases ha : Cursor.argument ⟨rest, offset + 1⟩ offset (b.toNat % 32) with
    | error fault => rw [ha] at h; exact absurd h nofun
    | ok argued =>
      rw [ha] at h
      have hle := Cursor.argument_ok (n := argued.1) (d := argued.2) ha
      dsimp only at h
      cases hp : ofParts? (b.toNat / 32) (b.toNat % 32) argued.1 with
      | none => rw [hp] at h; exact absurd h nofun
      | some head' =>
        rw [hp] at h
        obtain ⟨-, rfl⟩ := Prod.mk.inj (Except.ok.inj h)
        exact Nat.lt_succ_of_le hle

/-- The number of bytes in the shortest head with the given argument. -/
def shortestSize (argument : Nat) : Nat :=
  if argument < 24 then 1
  else if argument < UInt8.size then 2
  else if argument < UInt16.size then 3
  else if argument < UInt32.size then 5
  else 9

/-- **Writing a head** of a major type, with an argument below `2 ^ 64`, in as few bytes as
possible. -/
def write (major argument : Nat) : Bytes :=
  let first (info : Nat) : UInt8 := UInt8.ofNat (32 * major + info)
  if argument < 24 then [first argument]
  else if argument < UInt8.size then first 24 :: beBytes 1 argument
  else if argument < UInt16.size then first 25 :: beBytes 2 argument
  else if argument < UInt32.size then first 26 :: beBytes 4 argument
  else first 27 :: beBytes 8 argument

end Head

end AeadStream.Cbor
