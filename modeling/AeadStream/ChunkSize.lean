import AeadStream.Text.Number

/-!
# Chunk sizes

How large the chunks of an encrypted file may be chosen. The least size leaves room for an
epilogue in the final chunk, and the greatest is what a receiver accepts by default.
-/

namespace AeadStream.ChunkSize

/-- The least size. -/
def least : Nat := 256

/-- The greatest size. -/
def greatest : Nat := 16777216

/-- The size unless another one is chosen. -/
def standard : Nat := 65536

/-- **A chosen size,** or what is wrong with it. -/
def parse (text : String) : Except String Nat :=
  match Text.parseNat (UInt64.size - 1) text with
  | .error fault => .error fault.message
  | .ok size =>
    if size < least ∨ greatest < size then
      .error s!"chunk size must be between {least} and {greatest} bytes"
    else .ok size

end AeadStream.ChunkSize
