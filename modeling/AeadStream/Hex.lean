import AeadStream.Bytes
import AeadStream.Text.Quoted

/-!
# Hexadecimal text

Two digits a byte, the high one first; written in lower case and read in either.
-/

namespace AeadStream.Hex

/-- The digit for a number below sixteen. -/
def digit (n : Nat) : Char := Nat.digitChar n

/-- The two digits of a byte. -/
def digits (b : UInt8) : List Char := [digit (b.toNat / 16), digit (b.toNat % 16)]

/-- **Written:** two lowercase digits a byte. -/
def encode (bytes : Bytes) : String := String.ofList (bytes.flatMap digits)

/-- The value of a digit, given as the byte that stands for it. -/
def value? (b : UInt8) : Option UInt8 :=
  if 0x30 ≤ b ∧ b ≤ 0x39 then some (b - 0x30)
  else if 0x61 ≤ b ∧ b ≤ 0x66 then some (b - 0x57)
  else if 0x41 ≤ b ∧ b ≤ 0x46 then some (b - 0x37)
  else none

/-- Why a text is not hexadecimal. -/
inductive Fault
  /-- the number of digits is odd -/
  | oddLength
  /-- the byte at this position is not a digit -/
  | badDigit (byte : UInt8) (position : Nat)

/-- The wording. The offending byte is shown as the character with its number. -/
def Fault.message : Fault → String
  | oddLength => "Odd number of digits"
  | badDigit byte position =>
    "Invalid character " ++ Text.quotedChar (Char.ofUInt8 byte) ++ " at position " ++
      toString position

/-- The bytes that pairs of digits denote, the first of them standing at `position`. -/
def decodePairs (position : Nat) : Bytes → Except Fault Bytes
  | high :: low :: rest =>
    match value? high with
    | none => .error (.badDigit high position)
    | some h =>
      match value? low with
      | none => .error (.badDigit low (position + 1))
      | some l => (decodePairs (position + 2) rest).map ((16 * h + l) :: ·)
  | _ => .ok []

/-- **Read.** An odd number of digits is reported before a bad digit, and of the bad digits the
first. -/
def decode (text : Bytes) : Except Fault Bytes :=
  if text.length % 2 = 1 then .error .oddLength else decodePairs 0 text

end AeadStream.Hex
