import AeadStream.Proofs.Stream.Rotations

/-!
# No nonce is used twice

The chunks that a sender seals in a course, each with the number of rotations before it. Their
places are in strict order: a later chunk has more rotations before it, or as many and a larger
counter. Under one base nonce different counters give different nonces, so no two chunks share
both, and they can share a key and a nonce only if the keyed hash comes back to an earlier subkey.

* `chunkNonce_injective` — the counter can be read off the nonce;
* `SenderCall.pairwise_sealings` — the order of the places;
* `no_nonce_is_used_twice` — the whole course, with the bounds on the counter for both sides.
-/

namespace AeadStream

/-- **Different counters give different nonces.** -/
theorem chunkNonce_injective {baseNonce : Nonce} {i j : UInt32}
    (h : chunkNonce baseNonce i = chunkNonce baseNonce j) : i = j := by
  have hmask : (baseNonce.bytes.drop 20).length = 4 := by simp
  have hxor := List.append_cancel_left (congrArg Octets.bytes h)
  have hbytes := xorBytes_injective (by rw [length_beBytes, hmask]) (by rw [length_beBytes, hmask])
    hxor
  exact UInt32.toNat.inj (beBytes_injective i.toNat_lt j.toNat_lt hbytes)

/-! ## The chunks of a course -/

/-- **A chunk** as it was sealed. -/
structure Sealing where
  /-- the rotations that were performed before -/
  rotation : Nat
  /-- the stream as it was then -/
  stream : Stream
  /-- the call that emitted it -/
  call : SenderCall
  /-- the chunk itself -/
  sealed : Bytes

namespace Sealing

/-- The key under which the chunk was sealed. -/
def subkey (x : Sealing) : Subkey := x.stream.subkey

/-- The nonce under which the chunk was sealed. -/
def nonce (x : Sealing) : Nonce := x.stream.nonce

/-- **The order of places.** -/
def Before (x y : Sealing) : Prop :=
  x.rotation < y.rotation ∨
    x.rotation = y.rotation ∧ x.stream.counter.toNat < y.stream.counter.toNat

/-- **A genuine record:** the chunk is what the cipher gives for the call under this key and this
nonce. -/
def Genuine (x : Sealing) : Prop :=
  ∃ tag, x.call.tag? = some tag ∧
    x.sealed = sealChunk x.subkey x.nonce tag.toByte x.call.plaintext x.call.aad

/-- Two places in strict order differ in the number of rotations or in the nonce. -/
theorem ne_of_before {first : Stream} {x y : Sealing} {m n : Nat}
    (hx : x.stream.Placed first m) (hy : y.stream.Placed first n) (h : x.Before y) :
    (x.rotation, x.nonce) ≠ (y.rotation, y.nonce) := by
  intro heq
  obtain ⟨hrotation, hnonce⟩ := Prod.mk.inj heq
  rcases h with hlt | ⟨-, hlt⟩
  · omega
  · -- within one epoch the counters differ, and the base nonce is the same
    have hbase : y.stream.baseNonce = x.stream.baseNonce := hy.baseNonce.trans hx.baseNonce.symm
    simp only [nonce, Stream.nonce, hbase] at hnonce
    rw [chunkNonce_injective hnonce] at hlt
    omega

end Sealing

namespace SenderCall

/-- **The chunks that calls seal,** if `n` rotations were performed before them. -/
def sealings (n : Nat) (s : Stream) : List SenderCall → List Sealing
  | [] => []
  | c :: cs =>
    let later := sealings (n + (c.on s).rotations) (c.on s).state cs
    match (c.on s).result with
    | .ok (some sealed) => ⟨n, s, c, sealed⟩ :: later
    | .ok none | .error _ => later

/-- A chunk of a course was sealed by its first call or by a later one. -/
theorem mem_sealings_cons {n : Nat} {s : Stream} {c : SenderCall} {cs : List SenderCall}
    {x : Sealing} (hx : x ∈ sealings n s (c :: cs)) :
    (∃ sealed, (c.on s).result = .ok (some sealed) ∧ x = ⟨n, s, c, sealed⟩) ∨
      x ∈ sealings (n + (c.on s).rotations) (c.on s).state cs := by
  rw [sealings] at hx
  split at hx
  · next sealed hresult =>
    rcases List.mem_cons.mp hx with rfl | hx
    · exact .inl ⟨sealed, hresult, rfl⟩
    · exact .inr hx
  · exact .inr hx
  · exact .inr hx

/-- The chunks of a course are what its calls emit. -/
theorem map_sealed_sealings (calls : List SenderCall) (n : Nat) (s : Stream) :
    (sealings n s calls).map Sealing.sealed =
      (Course.results SenderCall.on s calls).filterMap fun r => r.toOption.join := by
  induction calls generalizing n s with
  | nil => rfl
  | cons c cs ih =>
    rw [sealings, Course.results_cons]
    cases hresult : (c.on s).result with
    | error fault => exact ih _ _
    | ok emitted =>
      cases emitted with
      | none => exact ih _ _
      | some sealed => exact congrArg (sealed :: ·) (ih _ _)

/-- The chunks of a course are genuine. -/
theorem genuine_of_mem_sealings (calls : List SenderCall) (n : Nat) (s : Stream) :
    ∀ x ∈ sealings n s calls, x.Genuine := by
  induction calls generalizing n s with
  | nil =>
    intro x hx
    cases hx
  | cons c cs ih =>
    intro x hx
    rcases mem_sealings_cons hx with ⟨sealed, hresult, rfl⟩ | hx
    · have hwent := c.went s
      generalize c.on s = o at hresult hwent
      cases hwent with
      | refused => cases hresult
      | rekeyed => cases hresult
      | @emitted tag htag =>
        obtain rfl := Option.some.inj (Except.ok.inj hresult)
        exact ⟨tag, htag, rfl⟩
    · exact ih _ _ x hx

/-- A chunk is sealed only while the stream did not end. -/
theorem phase_of_emits {c : SenderCall} {s : Stream} {sealed : Bytes}
    (h : (c.on s).result = .ok (some sealed)) : s.phase = .streaming := by
  have hmoved := c.moved s
  generalize c.on s = o at h hmoved
  cases hmoved with
  | stayed => cases h
  | rekeyed hphase => exact hphase
  | passed hphase => exact hphase

variable {first : Stream}

/-- Each chunk of a course has its place after so many rotations as it records, and these are no
more than the course performs. -/
theorem placed_of_mem_sealings (calls : List SenderCall) :
    ∀ {n : Nat} {s : Stream}, (s.phase = .streaming → s.Placed first n) →
      ∀ x ∈ sealings n s calls, x.stream.Placed first x.rotation ∧
        x.rotation ≤ n + Course.rotations (Course.outcomes SenderCall.on s calls) := by
  induction calls with
  | nil =>
    intro n s _ x hx
    cases hx
  | cons c cs ih =>
    intro n s h x hx
    rw [Course.outcomes_cons, Course.rotations_cons]
    rcases mem_sealings_cons hx with ⟨sealed, hresult, rfl⟩ | hx
    · exact ⟨h (phase_of_emits hresult), Nat.le_add_right _ _⟩
    · obtain ⟨hplaced, hle⟩ := ih (Stream.Placed.step (c.moved s) h) x hx
      exact ⟨hplaced, by omega⟩

/-- No chunk of a course has a place before its start. -/
theorem le_of_mem_sealings (calls : List SenderCall) :
    ∀ {n : Nat} {s : Stream}, (s.phase = .streaming → s.Placed first n) →
      ∀ x ∈ sealings n s calls,
        n < x.rotation ∨ n = x.rotation ∧ s.counter.toNat ≤ x.stream.counter.toNat := by
  induction calls with
  | nil =>
    intro n s _ x hx
    cases hx
  | cons c cs ih =>
    intro n s h x hx
    rcases mem_sealings_cons hx with ⟨sealed, -, rfl⟩ | hx
    · exact .inr ⟨rfl, Nat.le_refl _⟩
    · -- the first call moved the place on, or left it where it was
      have hlater := ih (Stream.Placed.step (c.moved s) h) x hx
      have hcounter := Stream.Placed.counter_le (c.moved s) h
      omega

/-- **The places of the chunks are in strict order.** -/
theorem pairwise_sealings (calls : List SenderCall) :
    ∀ {n : Nat} {s : Stream}, (s.phase = .streaming → s.Placed first n) →
      (sealings n s calls).Pairwise Sealing.Before := by
  induction calls with
  | nil =>
    intro n s _
    exact .nil
  | cons c cs ih =>
    intro n s h
    have hnext := Stream.Placed.step (c.moved s) h
    rw [sealings]
    split
    · next sealed hresult =>
      refine .cons (fun x hx => ?_) (ih hnext)
      -- a chunk went through, so the place after it is strictly behind
      have hlater := le_of_mem_sealings cs hnext x hx
      have hcounter := Stream.Placed.counter_le (c.moved s) h
      have hpassed : (c.on s).passed = true := by rw [Outcome.passed, hresult]
      rw [if_pos hpassed] at hcounter
      show n < x.rotation ∨ n = x.rotation ∧ s.counter.toNat < x.stream.counter.toNat
      omega
    · exact ih hnext
    · exact ih hnext

end SenderCall

/-! ## The whole course -/

/-- **No nonce is used twice** by a sender that begins with this stream and makes these calls. -/
structure Stream.NeverRepeats (s : Stream) (calls : List SenderCall) : Prop where
  /-- the chunks that are spoken of are all that the calls emit -/
  emitted : (SenderCall.sealings 0 s calls).map Sealing.sealed =
    (Course.results SenderCall.on s calls).filterMap fun r => r.toOption.join
  /-- each is what the cipher gives under its key and nonce -/
  genuine : ∀ x ∈ SenderCall.sealings 0 s calls, x.Genuine
  /-- its key is the one after so many rotations -/
  subkey : ∀ x ∈ SenderCall.sealings 0 s calls,
    x.subkey = subkeyAfter s.subkey s.baseNonce x.rotation
  /-- any two differ in the number of rotations or in the nonce -/
  rotation_nonce : (SenderCall.sealings 0 s calls).Pairwise fun x y =>
    (x.rotation, x.nonce) ≠ (y.rotation, y.nonce)
  /-- if no subkey comes back, then any two differ in the key or in the nonce -/
  subkey_nonce :
    (∀ i j, i ≤ Course.rotations (Course.outcomes SenderCall.on s calls) →
      j ≤ Course.rotations (Course.outcomes SenderCall.on s calls) →
      subkeyAfter s.subkey s.baseNonce i = subkeyAfter s.subkey s.baseNonce j → i = j) →
    (SenderCall.sealings 0 s calls).Pairwise fun x y =>
      (x.subkey, x.nonce) ≠ (y.subkey, y.nonce)

/-- A sender that begins below its ceiling uses no nonce twice. -/
theorem Stream.Placed.neverRepeats {s : Stream} (h : s.Placed s 0) (calls : List SenderCall) :
    s.NeverRepeats calls := by
  have hplaced := SenderCall.placed_of_mem_sealings calls fun _ => h
  have hdiffer : (SenderCall.sealings 0 s calls).Pairwise fun x y =>
      (x.rotation, x.nonce) ≠ (y.rotation, y.nonce) := by
    refine List.Pairwise.imp_of_mem ?_ (SenderCall.pairwise_sealings calls fun _ => h)
    intro x y hx hy hbefore
    exact Sealing.ne_of_before (hplaced x hx).1 (hplaced y hy).1 hbefore
  refine ⟨SenderCall.map_sealed_sealings calls 0 s, SenderCall.genuine_of_mem_sealings calls 0 s,
    fun x hx => (hplaced x hx).1.subkey, hdiffer, ?_⟩
  intro hsubkeys
  refine List.Pairwise.imp_of_mem ?_ hdiffer
  intro x y hx hy hne heq
  obtain ⟨hsubkey, hnonce⟩ := Prod.mk.inj heq
  obtain ⟨hxplaced, hxle⟩ := hplaced x hx
  obtain ⟨hyplaced, hyle⟩ := hplaced y hy
  rw [Nat.zero_add] at hxle hyle
  have hrotation : x.rotation = y.rotation := by
    refine hsubkeys _ _ hxle hyle ?_
    rw [← hxplaced.subkey, ← hyplaced.subkey]
    exact hsubkey
  exact hne (Prod.ext hrotation hnonce)

/-- **No nonce is used twice and the counter does not overflow.** Take any calls on a sender,
failed ones included. Any two chunks that they seal differ in the number of rotations before them
or in the nonce, and so in the key or in the nonce unless a subkey comes back. And in each state
that a sender or a receiver reaches before the final chunk went through, the counter is below its
ceiling and is the number of chunks since the last rotation. -/
theorem no_nonce_is_used_twice {ρ : Type} [Entropy ρ] {random : ρ} {header : Header}
    (hdraw : (Entropy.draw random 24).1 = .ok header) (key : SessionKey) (config : Config)
    (calls : List SenderCall) (received : List ReceiverCall) :
    ∃ sender receiver : Stream,
      (Stream.sender key random config).result = .ok (header, sender) ∧
      Stream.receiver key header.bytes config = .ok receiver ∧
      sender.NeverRepeats calls ∧
      ((Course.state SenderCall.on sender calls).phase = .streaming →
        (Course.state SenderCall.on sender calls).Bounded
          (Course.chunksSinceRotation (Course.outcomes SenderCall.on sender calls))) ∧
      ((Course.state ReceiverCall.on receiver received).phase = .streaming →
        (Course.state ReceiverCall.on receiver received).Bounded
          (Course.chunksSinceRotation (Course.outcomes ReceiverCall.on receiver received))) := by
  refine ⟨.fresh key header config, .fresh key header config, Stream.sender_eq_fresh hdraw _ _,
    Stream.receiver_eq_fresh _ _ _, ?_, ?_, ?_⟩
  · exact (Stream.Placed.fresh key header config).neverRepeats calls
  · exact course_bounded SenderCall.moved key header config calls
  · exact course_bounded ReceiverCall.moved key header config received

/-- A tape of zeros gives a header, and the calls seal two chunks around a rotation. -/
theorem no_nonce_is_used_twice_under_zeros :
    (Entropy.draw (Tape.mk (Octets.zero 24).bytes) 24).1 = .ok (Octets.zero 24) ∧
      ∃ sender receiver : Stream,
        (Stream.sender (.zero 32) (Tape.mk (Octets.zero 24).bytes) {}).result =
          .ok (.zero 24, sender) ∧
        Stream.receiver (.zero 32) (Octets.zero 24).bytes {} = .ok receiver ∧
        sender.NeverRepeats [.push [1] .rekey [], .rekey, .push [1] .message []] ∧
        ((Course.state SenderCall.on sender
            [.push [1] .rekey [], .rekey, .push [1] .message []]).phase = .streaming →
          (Course.state SenderCall.on sender
              [.push [1] .rekey [], .rekey, .push [1] .message []]).Bounded
            (Course.chunksSinceRotation (Course.outcomes SenderCall.on sender
              [.push [1] .rekey [], .rekey, .push [1] .message []]))) ∧
        ((Course.state ReceiverCall.on receiver [.rekey]).phase = .streaming →
          (Course.state ReceiverCall.on receiver [.rekey]).Bounded
            (Course.chunksSinceRotation (Course.outcomes ReceiverCall.on receiver [.rekey]))) :=
  ⟨rfl, no_nonce_is_used_twice rfl _ _ _ _⟩

end AeadStream
