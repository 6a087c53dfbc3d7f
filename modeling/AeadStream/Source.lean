import AeadStream.Fault.Io

/-!
# Sources

Where bytes are read from. A source holds all the bytes it will ever give and decides in advance
how each call goes: it may be interrupted, or give fewer bytes than were asked for, or fail for
good after some bytes. `Source.gather` reads on through all that until it has what it needs.

* `gather_append` — no byte is lost or changed on the way;
* `readExact_ok` — bytes that were read are as many as were asked for.
-/

namespace AeadStream

/-- How a call on a source or a sink goes. -/
inductive Turn
  /-- nothing happens and the call may be repeated -/
  | interrupt
  /-- at most this many bytes are handed over -/
  | upTo (limit : Nat)
deriving DecidableEq

/-- **A source** of bytes. -/
structure Source where
  /-- the bytes that were not read yet -/
  rest : Bytes
  /-- how the next calls go -/
  turns : List Turn := []
  /-- how many bytes a call gives at most once the turns are used up, if there is a limit -/
  stride : Option Nat := none
  /-- after how many more bytes the source fails for good, if it does, and how -/
  stop : Option (Nat × IoFault) := none
deriving DecidableEq

/-- What came of a call on a source. -/
inductive Reading
  | interrupted
  | failed (fault : IoFault)
  /-- some bytes, or none at the end -/
  | bytes (got : Bytes)
deriving DecidableEq

namespace Source

/-- A source that gives the bytes as they are asked for. -/
def ofBytes (bytes : Bytes) : Source := { rest := bytes }

/-! ## Single calls -/

/-- Hands over at most `n` bytes, as far as there are any. -/
def give (s : Source) (n : Nat) : Reading × Source :=
  match s.stop with
  | some (0, fault) => (.failed fault, s)
  | some (left, fault) =>
    let got := s.rest.take (min n left)
    (.bytes got,
     { s with rest := s.rest.drop (min n left), stop := some (left - got.length, fault) })
  | none => (.bytes (s.rest.take n), { s with rest := s.rest.drop n })

/-- **A call** that asks for at most `n` bytes. -/
def read (s : Source) (n : Nat) : Reading × Source :=
  match s.turns with
  | .interrupt :: turns => (.interrupted, { s with turns })
  | .upTo limit :: turns => give { s with turns } (min n limit)
  | [] => s.give (match s.stride with | some limit => min n limit | none => n)

@[simp] theorem turns_give (s : Source) (n : Nat) : (s.give n).2.turns = s.turns := by
  unfold give; split <;> rfl

/-- What a call hands over is the next bytes, and no more than were asked for. -/
theorem give_bytes {s s' : Source} {n : Nat} {got : Bytes}
    (h : s.give n = (.bytes got, s')) :
    s.rest = got ++ s'.rest ∧ got.length ≤ n := by
  unfold give at h
  split at h
  · exact absurd (congrArg Prod.fst h) nofun
  · obtain ⟨h1, h2⟩ := Prod.mk.inj h
    obtain rfl := Reading.bytes.inj h1
    subst h2
    exact ⟨(List.take_append_drop _ _).symm, by rw [List.length_take]; omega⟩
  · obtain ⟨h1, h2⟩ := Prod.mk.inj h
    obtain rfl := Reading.bytes.inj h1
    subst h2
    exact ⟨(List.take_append_drop _ _).symm, by rw [List.length_take]; omega⟩

theorem give_ne_interrupted {s s' : Source} {n : Nat} : s.give n ≠ (.interrupted, s') := by
  unfold give; split <;> simp

/-- A call hands over the next bytes, no more than were asked for, and uses up its turn. -/
theorem read_bytes {s s' : Source} {n : Nat} {got : Bytes}
    (h : s.read n = (.bytes got, s')) :
    s.rest = got ++ s'.rest ∧ got.length ≤ n ∧ s'.turns.length ≤ s.turns.length := by
  unfold read at h
  split at h
  · exact absurd (congrArg Prod.fst h) nofun
  · rename_i limit turns hturns
    have hg := give_bytes h
    have ht := congrArg (fun p => p.2.turns) h
    simp only [turns_give] at ht
    refine ⟨hg.1, by omega, ?_⟩
    simp [hturns, ← ht]
  · have hg := give_bytes h
    have ht := congrArg (fun p => p.2.turns) h
    simp only [turns_give] at ht
    refine ⟨hg.1, ?_, by simp [← ht]⟩
    have hlen := hg.2
    split at hlen <;> omega

/-- An interruption uses up a turn and nothing else. -/
theorem read_interrupted {s s' : Source} {n : Nat} (h : s.read n = (.interrupted, s')) :
    s'.rest = s.rest ∧ s'.turns.length < s.turns.length := by
  unfold read at h
  split at h
  · rename_i turns hturns
    obtain ⟨-, rfl⟩ := Prod.mk.inj h
    exact ⟨rfl, by simp [hturns]⟩
  · exact absurd h give_ne_interrupted
  · exact absurd h give_ne_interrupted

theorem give_failed {s s' : Source} {n : Nat} {fault : IoFault}
    (h : s.give n = (.failed fault, s')) : s' = s := by
  unfold give at h
  split at h
  · exact (congrArg Prod.snd h).symm
  · exact absurd (congrArg Prod.fst h) nofun
  · exact absurd (congrArg Prod.fst h) nofun

/-- A failed call reads nothing. -/
theorem read_failed {s s' : Source} {n : Nat} {fault : IoFault}
    (h : s.read n = (.failed fault, s')) : s'.rest = s.rest := by
  unfold read at h
  split at h
  · exact absurd (congrArg Prod.fst h) nofun
  · rw [give_failed h]
  · rw [give_failed h]

/-! ## Reading on -/

/-- What came of reading on until there is enough. -/
structure Haul where
  /-- the bytes that came -/
  got : Bytes
  /-- the fault that ended it, if one did -/
  fault : Option IoFault
  /-- the source afterwards -/
  source : Source

/-- Reads on until `n` more bytes are there; `got` are those from before, in reverse. -/
def gatherOnto (s : Source) (n : Nat) (got : Bytes) : Haul :=
  if n = 0 then ⟨got.reverse, none, s⟩
  else
    match _h : s.read n with
    | (.interrupted, s') => gatherOnto s' n got
    | (.failed fault, s') => ⟨got.reverse, some fault, s'⟩
    | (.bytes [], s') => ⟨got.reverse, none, s'⟩
    | (.bytes (b :: bs), s') =>
      gatherOnto s' (n - (bs.length + 1)) ((b :: bs).reverse ++ got)
termination_by s.turns.length + n
decreasing_by
  · have := (read_interrupted _h).2; omega
  · have := (read_bytes _h).2.2; omega

/-- **Reading on** until `n` bytes are there or no more come. Interrupted calls are repeated. -/
def gather (s : Source) (n : Nat) : Haul := s.gatherOnto n []

/-- **Reading exactly** `n` bytes; that they run out is a fault. What was read stays read. -/
def readExact (s : Source) (n : Nat) : Except IoFault Bytes × Source :=
  let haul := s.gather n
  match haul.fault with
  | some fault => (.error fault, haul.source)
  | none =>
    if haul.got.length < n then (.error .endOfInput, haul.source)
    else (.ok haul.got, haul.source)

/-- **Filling up** to `n` bytes; fewer come only at the end. -/
def fill (s : Source) (n : Nat) : Except IoFault Bytes × Source :=
  let haul := s.gather n
  match haul.fault with
  | some fault => (.error fault, haul.source)
  | none => (.ok haul.got, haul.source)

theorem gatherOnto_append (s : Source) (n : Nat) (got : Bytes) :
    got.reverse ++ s.rest = (s.gatherOnto n got).got ++ (s.gatherOnto n got).source.rest := by
  fun_induction gatherOnto s n got with
  | case1 => rfl
  | case2 s n got hn s' h ih => rw [← ih, (read_interrupted h).1]
  | case3 s n got hn fault s' h =>
    rw [read_failed h]
  | case4 s n got hn s' h => simp [(read_bytes h).1]
  | case5 s n got hn b bs s' h ih => rw [← ih, (read_bytes h).1]; simp

/-- **Nothing is lost:** what was read and what is left are what was there. -/
theorem gather_append (s : Source) (n : Nat) :
    s.rest = (s.gather n).got ++ (s.gather n).source.rest := by
  simpa [gather] using s.gatherOnto_append n []

/-- Bytes read exactly are as many as were asked for, and were next. -/
theorem readExact_ok {s s' : Source} {n : Nat} {got : Bytes}
    (h : s.readExact n = (.ok got, s')) : s.rest = got ++ s'.rest ∧ n ≤ got.length := by
  have hap := s.gather_append n
  unfold readExact at h
  dsimp only at h
  split at h
  · exact absurd (congrArg Prod.fst h) nofun
  · split at h
    · exact absurd (congrArg Prod.fst h) nofun
    · obtain ⟨h1, h2⟩ := Prod.mk.inj h
      obtain rfl := Except.ok.inj h1
      subst h2
      exact ⟨hap, by omega⟩

/-- Bytes filled up were next. -/
theorem fill_ok {s s' : Source} {n : Nat} {got : Bytes}
    (h : s.fill n = (.ok got, s')) : s.rest = got ++ s'.rest := by
  have hap := s.gather_append n
  unfold fill at h
  dsimp only at h
  split at h
  · exact absurd (congrArg Prod.fst h) nofun
  · obtain ⟨h1, h2⟩ := Prod.mk.inj h
    obtain rfl := Except.ok.inj h1
    subst h2
    exact hap

end Source

end AeadStream
