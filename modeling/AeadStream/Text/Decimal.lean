/-!
# Shortest decimals

A binary floating point number stands for all reals that round to it. It is shown by the decimal
with the fewest digits among those, and of several by the one nearest to the number itself. All
is decided in exact arithmetic: a finite number is a natural number times a power of two.
-/

namespace AeadStream.Text

/-- **A floating point number** of 53 bits. -/
inductive Binary64
  | nan
  | infinite (negative : Bool)
  /-- the number `mantissa · 2 ^ exponent`, or its negative -/
  | finite (negative : Bool) (mantissa : Nat) (exponent : Int)
deriving DecidableEq

namespace Binary64

/-- Brings a number to a mantissa of 53 bits, or of fewer at the least exponent. -/
def normalized (mantissa : Nat) (exponent : Int) : Nat × Int :=
  if mantissa = 0 then (0, -1074)
  else
    let up := min (52 - mantissa.log2 : Nat) (exponent + 1074).toNat
    (mantissa <<< up, exponent - up)

/-- Reads the bits of a number in a format with the given bits of fraction and of exponent. -/
def ofBits (fractionBits exponentBits bits : Nat) : Binary64 :=
  let fraction := bits % (1 <<< fractionBits)
  let biased := (bits >>> fractionBits) % (1 <<< exponentBits)
  let negative := (bits >>> (fractionBits + exponentBits)) % 2 = 1
  let least : Int := 2 - (1 <<< (exponentBits - 1) : Nat) - fractionBits
  if biased = (1 <<< exponentBits) - 1 then
    if fraction = 0 then infinite negative else nan
  else
    let (mantissa, exponent) :=
      if biased = 0 then normalized fraction least
      else normalized ((1 <<< fractionBits) + fraction) (least + biased - 1)
    finite negative mantissa exponent

end Binary64

/-- The reals that round to a number, in quarters of its unit: the ends, and whether they
belong to it. -/
structure Interval where
  low : Nat
  middle : Nat
  high : Nat
  closed : Bool

/-- The reals that round to `mantissa · 2 ^ exponent`. Below a power of two the numbers lie twice
as dense, and the ends round to the even mantissa. -/
def interval (mantissa : Nat) (exponent : Int) : Interval where
  low := 4 * mantissa - (if mantissa = 0x10000000000000 ∧ exponent ≠ -1074 then 1 else 2)
  middle := 4 * mantissa
  high := 4 * mantissa + 2
  closed := mantissa % 2 = 0

/-- The multiple of `10 ^ power` that lies in the interval and is nearest to its middle, if there
is one, as the factor; of two equally near the larger. -/
def multipleIn (i : Interval) (exponent power : Int) : Option Nat :=
  let unit := Nat.pow 10 power.toNat <<< (2 - exponent).toNat
  let scale := Nat.pow 10 (-power).toNat <<< (exponent - 2).toNat
  let within (d : Nat) : Bool :=
    if i.closed then i.low * scale ≤ d * unit && d * unit ≤ i.high * scale
    else i.low * scale < d * unit && d * unit < i.high * scale
  let below := i.middle * scale / unit
  match within below, within (below + 1) with
  | false, false => none
  | true, false => some below
  | false, true => some (below + 1)
  | true, true =>
    if 2 * (i.middle * scale) < (2 * below + 1) * unit then some below else some (below + 1)

/-- The shortest decimal `digits · 10 ^ power`, looking at ever finer grids from `power` on, at
most `fuel` times. -/
def shortestFrom (i : Interval) (exponent : Int) : Nat → Int → Nat × Int
  | 0, power => (i.middle, power)
  | fuel + 1, power =>
    match multipleIn i exponent power with
    | some digits => (digits, power)
    | none => shortestFrom i exponent fuel (power - 1)

/-- **The shortest decimal** that rounds to the positive number `mantissa · 2 ^ exponent`. The
largest number is below `10 ^ 309` and the least is above `10 ^ -324`. -/
def shortest (mantissa : Nat) (exponent : Int) : Nat × Int :=
  shortestFrom (interval mantissa exponent) exponent 640 309

/-- A decimal in positional notation, always with a point and a digit behind it. -/
def positional (digits : Nat) (power : Int) : String :=
  if 0 ≤ power then
    toString (digits * Nat.pow 10 power.toNat) ++ ".0"
  else
    let places := (-power).toNat
    let fraction := toString (digits % Nat.pow 10 places)
    toString (digits / Nat.pow 10 places) ++ "." ++
      "".pushn '0' (places - fraction.length) ++ fraction

/-- **The text** of a number. -/
def decimal : Binary64 → String
  | .nan => "NaN"
  | .infinite negative => if negative then "-inf" else "inf"
  | .finite negative mantissa exponent =>
    let text :=
      if mantissa = 0 then "0.0"
      else
        let (digits, power) := shortest mantissa exponent
        positional digits power
    if negative then "-" ++ text else text

example : decimal (.ofBits 52 11 0x3ff8000000000000) = "1.5" := by decide +kernel
example : decimal (.ofBits 52 11 0x3fb999999999999a) = "0.1" := by decide +kernel
example : decimal (.ofBits 23 8 0x3dcccccd) = "0.10000000149011612" := by decide +kernel
example : decimal (.ofBits 52 11 0x4415af1d78b58c40) = "100000000000000000000.0" := by
  decide +kernel
example : decimal (.ofBits 10 5 0xfbff) = "-65504.0" := by decide +kernel

end AeadStream.Text
