import AeadStream.Source

/-!
# Sinks

Where bytes are written to. Like a source, a sink decides in advance how each call goes: it may
be interrupted, or take fewer bytes than it was given, or take no more at all once it is full.
`Sink.writeAll` writes on until everything is taken.
-/

namespace AeadStream

/-- **A sink** of bytes. -/
structure Sink where
  /-- what was written, the latest piece first -/
  pieces : List Bytes := []
  /-- how the next calls go -/
  turns : List Turn := []
  /-- how many bytes a call takes at most once the turns are used up, if there is a limit -/
  stride : Option Nat := none
  /-- how many more bytes it takes, if there is a limit -/
  room : Option Nat := none
  /-- how writing to a full sink fails; otherwise it takes nothing -/
  full : Option IoFault := none
  /-- how flushing fails, if it does -/
  flushFault : Option IoFault := none
  /-- everything that was written was flushed -/
  flushed : Bool := false
deriving DecidableEq

/-- What came of a call on a sink. -/
inductive Writing
  | interrupted
  | failed (fault : IoFault)
  /-- so many bytes were taken -/
  | took (count : Nat)
deriving DecidableEq

namespace Sink

/-- **What a sink holds,** in the order in which it was written. -/
def contents (s : Sink) : Bytes := s.pieces.reverse.flatten

/-! ## Single calls -/

/-- The smaller of a number and a limit, if there is one. -/
def limited (n : Nat) : Option Nat → Nat
  | some limit => min n limit
  | none => n

/-- Takes the first bytes of the given ones, at most `n` and as far as there is room. -/
def take (s : Sink) (bytes : Bytes) (n : Nat) : Writing × Sink :=
  if s.room = some 0 ∧ bytes ≠ [] then
    match s.full with
    | some fault => (.failed fault, s)
    | none => (.took 0, s)
  else
    let taken := bytes.take (limited n s.room)
    (.took taken.length,
     { s with
       pieces := taken :: s.pieces
       room := s.room.map (· - taken.length)
       flushed := false })

/-- **A call** that offers the given bytes. -/
def write (s : Sink) (bytes : Bytes) : Writing × Sink :=
  match s.turns with
  | .interrupt :: turns => (.interrupted, { s with turns })
  | .upTo limit :: turns => take { s with turns } bytes (min bytes.length limit)
  | [] => s.take bytes (limited bytes.length s.stride)

/-- Makes sure that what was written has arrived. -/
def flush (s : Sink) : Except IoFault Unit × Sink :=
  match s.flushFault with
  | some fault => (.error fault, s)
  | none => (.ok (), { s with flushed := true })

@[simp] theorem turns_take (s : Sink) (bytes : Bytes) (n : Nat) :
    (s.take bytes n).2.turns = s.turns := by
  unfold take
  split
  · split <;> rfl
  · rfl

theorem take_ne_interrupted {s s' : Sink} {bytes : Bytes} {n : Nat} :
    s.take bytes n ≠ (.interrupted, s') := by
  unfold take
  split
  · split <;> simp
  · simp

/-- An interruption uses up a turn and writes nothing. -/
theorem write_interrupted {s s' : Sink} {bytes : Bytes}
    (h : s.write bytes = (.interrupted, s')) :
    s'.pieces = s.pieces ∧ s'.turns.length < s.turns.length := by
  unfold write at h
  split at h
  · rename_i turns hturns
    obtain ⟨-, rfl⟩ := Prod.mk.inj h
    exact ⟨rfl, by simp [hturns]⟩
  · exact absurd h take_ne_interrupted
  · exact absurd h take_ne_interrupted

/-- No call adds a turn. -/
theorem turns_write_le (s : Sink) (bytes : Bytes) :
    (s.write bytes).2.turns.length ≤ s.turns.length := by
  unfold write
  split
  · rename_i turns hturns; simp [hturns]
  · rename_i limit turns hturns; simp [hturns]
  · simp

/-! ## Writing on -/

/-- **Writing everything.** Interrupted calls are repeated; a sink that takes nothing is a
fault. What was written before a fault stays written. -/
def writeAll (s : Sink) (bytes : Bytes) : Except IoFault Unit × Sink :=
  match bytes with
  | [] => (.ok (), s)
  | b :: bs =>
    match _h : s.write (b :: bs) with
    | (.interrupted, s') => writeAll s' (b :: bs)
    | (.failed fault, s') => (.error fault, s')
    | (.took 0, s') => (.error .writeZero, s')
    | (.took (n + 1), s') => writeAll s' (bs.drop n)
termination_by s.turns.length + bytes.length
decreasing_by
  · have := (write_interrupted _h).2; omega
  · have := s.turns_write_le (b :: bs)
    rw [_h] at this
    simp only [List.length_drop, List.length_cons] at this ⊢
    omega

end Sink

end AeadStream
