import AeadStream.Bytes
import AeadStream.Text.Utf8

/-!
# Numbers in text

Decimal numbers as they are given on a command line: ASCII digits, with a plus sign in front if
one likes.
-/

namespace AeadStream.Text

/-- Why a text is no number. -/
inductive NumberFault
  | empty
  | badDigit
  | tooLarge
deriving DecidableEq

/-- The wording. -/
def NumberFault.message : NumberFault → String
  | empty => "cannot parse integer from empty string"
  | badDigit => "invalid digit found in string"
  | tooLarge => "number too large to fit in target type"

/-- Reads on behind `value`, from the left; the first problem is the one that is reported. -/
def parseDigits (limit value : Nat) : Bytes → Except NumberFault Nat
  | [] => .ok value
  | b :: rest =>
    if b < 0x30 ∨ 0x39 < b then .error .badDigit
    else
      let value := 10 * value + (b.toNat - 0x30)
      if limit < value then .error .tooLarge else parseDigits limit value rest

/-- **A number** up to `limit`. A sign alone is a bad digit, and so is a minus sign. -/
def parseNat (limit : Nat) (text : String) : Except NumberFault Nat :=
  match utf8 text with
  | [] => .error .empty
  | [0x2b] => .error .badDigit
  | 0x2b :: digits => parseDigits limit 0 digits
  | digits => parseDigits limit 0 digits

end AeadStream.Text
