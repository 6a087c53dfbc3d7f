import AeadStream.Argon2.Hash
import AeadStream.Fault.Command
import AeadStream.KeySchedule
import AeadStream.Outcome
import AeadStream.Source

/-!
# Keys from passwords

A stream under a password starts with a preamble: a salt and the costs of the hash that turns
the password into a session key. The preamble is public, and a changed one gives another key.
A receiver does not spend more than fixed limits on it.
-/

namespace AeadStream

/-! ## Password files -/

namespace PasswordFile

/-- The contents without a line end behind them. -/
def withoutLineEnd (contents : Bytes) : Bytes :=
  if [0x0d, 0x0a].isSuffixOf contents then contents.dropLast.dropLast
  else if [0x0a].isSuffixOf contents then contents.dropLast
  else contents

/-- **The password** in a file with the given contents: all of them but one line end at the
end. -/
def parse (contents : Bytes) : Except CommandFault Bytes :=
  let password := withoutLineEnd contents
  if password = [] then .error (.password "password file is empty") else .ok password

end PasswordFile

/-! ## Costs -/

namespace Argon2.Costs

/-- The most memory that a receiver spends, in KiB. -/
def maxMemory : UInt32 := 4194304

/-- The most passes that a receiver makes. -/
def maxPasses : UInt32 := 64

/-- The most lanes that a receiver takes. -/
def maxLanes : UInt32 := 16

/-- Some cost is above its limit. -/
def exceedsLimits (c : Costs) : Bool :=
  maxMemory < c.memory || maxPasses < c.passes || maxLanes < c.lanes

/-- **The check** of costs: first against the limits, then for being defined at all. -/
def check (c : Costs) : Except CommandFault Unit :=
  if c.exceedsLimits then
    .error (.password
      (s!"key derivation costs exceed limits: m_cost={c.memory.toNat} KiB, " ++
        s!"t_cost={c.passes.toNat}, p_cost={c.lanes.toNat}"))
  else
    match c.fault? with
    | some fault => .error (.password fault.message)
    | none => .ok ()

/-- The wording for programmers. -/
def describe (c : Costs) : String :=
  Text.record "PasswordParams"
    [("m_cost_kib", toString c.memory.toNat), ("t_cost", toString c.passes.toNat),
     ("p_cost", toString c.lanes.toNat)]

end Argon2.Costs

/-! ## The preamble -/

/-- **The preamble** of a stream under a password. -/
structure Preamble where
  salt : Octets 16
  costs : Argon2.Costs
deriving DecidableEq

namespace Preamble

/-- The number of bytes of a preamble. -/
def size : Nat := 28

/-- A preamble with a fresh salt. Costs are checked before anything is drawn. -/
def generate {ρ : Type} [Entropy ρ] (source : ρ) (costs : Argon2.Costs) :
    Except CommandFault Preamble × ρ :=
  match costs.check with
  | .error fault => (.error fault, source)
  | .ok () =>
    match Entropy.draw source 16 with
    | (.error reason, source) => (.error (.stream (.noRandomness reason)), source)
    | (.ok salt, source) => (.ok ⟨salt, costs⟩, source)

/-- **Written:** the salt, then the memory, the passes and the lanes in four bytes each. -/
def encode (p : Preamble) : Bytes :=
  p.salt.bytes ++ beBytes 4 p.costs.memory.toNat ++ beBytes 4 p.costs.passes.toNat ++
    beBytes 4 p.costs.lanes.toNat

/-- The preamble in the given bytes, whatever its costs. -/
def ofBytes (bytes : Bytes) : Preamble :=
  let word (offset : Nat) : UInt32 := UInt32.ofNat (natOfBe ((bytes.drop offset).take 4))
  { salt := .padded 16 bytes, costs := ⟨word 16, word 20, word 24⟩ }

/-- **Read** from a source. Costs out of range are refused before any work is done. -/
def read (source : Source) : Except CommandFault Preamble × Source :=
  match source.readExact size with
  | (.error fault, source) => (.error (.io fault), source)
  | (.ok bytes, source) =>
    let preamble := ofBytes bytes
    (preamble.costs.check.map fun _ => preamble, source)

/-- **The session key** for a password. -/
def deriveKey (p : Preamble) (password : Bytes) : Except CommandFault SessionKey :=
  if password = [] then .error (.password "password is empty")
  else
    match p.costs.check with
    | .error fault => .error fault
    | .ok () =>
      if UInt32.size ≤ password.length then .error (.password "password is too long")
      else .ok (Argon2.hash p.costs password p.salt.bytes)

/-- What is reported once a key was derived. -/
def derived (p : Preamble) : List Event :=
  [.keyDerived p.costs.memory p.costs.passes p.costs.lanes]

end Preamble

end AeadStream
