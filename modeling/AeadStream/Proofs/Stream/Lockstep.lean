import AeadStream.Proofs.Stream.Calls

/-!
# The two sides stay in step

A sender and a receiver under one key and header, whose settings agree on the ceiling of the
counter. The receiver takes each chunk in order, with the associated data that it was sealed
with, and replaces its subkey where the sender did. Then both sides hold the same state after
every step, and what comes out is what went in. The sender's calls may fail, and any bytes that
the receiver refuses may be offered to it in between.

* `Stream.InStep` — what the two sides share;
* `Peers.exchange_inStep` — one step, and `peers_stay_in_step` for the whole conversation.
-/

namespace AeadStream

/-! ## Being in step -/

/-- **In step:** everything that the next chunks depend on is the same on both sides. The limits
on plaintexts may differ. -/
structure Stream.InStep (s r : Stream) : Prop where
  subkey : s.subkey = r.subkey
  baseNonce : s.baseNonce = r.baseNonce
  counter : s.counter = r.counter
  epoch : s.epoch = r.epoch
  phase : s.phase = r.phase
  ceiling : s.ceiling = r.ceiling

namespace Stream.InStep

variable {s r : Stream}

/-- Streams in step differ in the limit on plaintexts only. -/
theorem eq_limited (h : s.InStep r) : r = { s with maxChunkLen := r.maxChunkLen } := by
  obtain ⟨hsubkey, hnonce, hcounter, hepoch, hphase, hceiling⟩ := h
  rw [hsubkey, hnonce, hcounter, hepoch, hphase, hceiling]

/-- Both sides have the same chunk at this place. -/
theorem chunk_eq (h : s.InStep r) (plaintext : Bytes) (tag : Tag) (aad : Bytes) :
    r.chunk plaintext tag aad = s.chunk plaintext tag aad := by
  rw [h.eq_limited]
  rfl

/-- Replacing the subkey on both sides keeps them in step. -/
theorem rotate (h : s.InStep r) : s.rotate.InStep r.rotate := by
  rw [h.eq_limited]
  exact ⟨rfl, rfl, rfl, rfl, rfl, rfl⟩

/-- The limit on plaintexts has no influence on how a stream moves on. -/
theorem advance_limited (s : Stream) (limit : UInt64) (tag : Tag) :
    ({ s with maxChunkLen := limit } : Stream).advance tag =
      ({ (s.advance tag).1 with maxChunkLen := limit }, (s.advance tag).2) := by
  cases tag with
  | rekey => rfl
  | final => rfl
  | message =>
    simp only [Stream.advance]
    split <;> rfl
  | push =>
    simp only [Stream.advance]
    split <;> rfl

/-- A chunk that went through on both sides keeps them in step. -/
theorem advance (h : s.InStep r) (tag : Tag) :
    (s.advance tag).1.InStep (r.advance tag).1 := by
  rw [h.eq_limited, advance_limited s r.maxChunkLen]
  exact ⟨rfl, rfl, rfl, rfl, rfl, rfl⟩

/-- The receiver replaces its subkey where the sender does. -/
theorem rekey_mirrored (h : s.InStep r) (hphase : s.phase = .streaming) :
    ReceiverCall.rekey.on r = ⟨.ok none, r.rotate, [.subkeyRotated r.rotate.epoch false]⟩ := by
  rw [ReceiverCall.on, Stream.rekey_of_streaming (h.phase ▸ hphase)]
  rfl

/-- The receiver takes the chunk of the sender's place, if it is within the receiver's limit: it is
the chunk that the receiver itself has there. -/
theorem chunk_pulled (h : s.InStep r) (hphase : s.phase = .streaming) {plaintext aad : Bytes}
    {tag : Tag} (hlimit : plaintext.length ≤ r.maxChunkLen.toNat)
    (hsize : (s.chunk plaintext tag aad).length < UInt64.size) :
    (ReceiverCall.pull (s.chunk plaintext tag aad) aad).on r =
      ⟨.ok (some (plaintext, tag)), (r.advance tag).1, (r.advance tag).2⟩ := by
  rw [length_chunk] at hsize
  rw [ReceiverCall.on, ← h.chunk_eq,
    Stream.pull_chunk (h.phase ▸ hphase) (le_sealedLimit_iff.mpr ⟨hlimit, hsize⟩)]
  rfl

/-- Streams under the same header are in step if their ceilings agree. -/
theorem fresh (key : SessionKey) (header : Header) {sc rc : Config}
    (h : sc.ceiling = rc.ceiling) : (Stream.fresh key header sc).InStep (.fresh key header rc) :=
  ⟨rfl, rfl, rfl, rfl, rfl, h⟩

end Stream.InStep

/-! ## Conversations -/

/-- **The two sides** of a stream. -/
structure Peers where
  sender : Stream
  receiver : Stream
deriving DecidableEq

/-- **A move** in a conversation. -/
inductive Move
  /-- the sender is called, and the receiver is told of what comes of it -/
  | call (c : SenderCall)
  /-- the receiver is offered bytes that are not the sender's next chunk -/
  | offer (sealed aad : Bytes)
deriving DecidableEq

/-- What the receiver is to do once a call of the sender gave this result: take the chunk that
was emitted, with the same associated data, or replace its subkey as well. A call that failed
does not concern it. -/
def SenderCall.relayed (c : SenderCall) : Except StreamFault (Option Bytes) → Option ReceiverCall
  | .ok (some sealed) => some (.pull sealed c.aad)
  | .ok none => some .rekey
  | .error _ => none

/-- **What comes of a move.** -/
structure Exchange where
  move : Move
  /-- the result on the sender's side, if it was called -/
  sent : Option (Except StreamFault (Option Bytes))
  /-- the result on the receiver's side, if it was called -/
  received : Option (Except StreamFault (Option (Bytes × Tag)))
  /-- both sides afterwards -/
  peers : Peers

namespace Peers

/-- Makes a move. -/
def exchange (p : Peers) (m : Move) : Exchange :=
  match m with
  | .call c =>
    let sent := c.on p.sender
    match c.relayed sent.result with
    | some d =>
      let received := d.on p.receiver
      ⟨m, some sent.result, some received.result, ⟨sent.state, received.state⟩⟩
    | none => ⟨m, some sent.result, none, ⟨sent.state, p.receiver⟩⟩
  | .offer sealed aad =>
    let received := (ReceiverCall.pull sealed aad).on p.receiver
    ⟨m, none, some received.result, ⟨p.sender, received.state⟩⟩

@[simp] theorem move_exchange (p : Peers) (m : Move) : (p.exchange m).move = m := by
  cases m with
  | call c =>
    rw [exchange]
    split <;> rfl
  | offer => rfl

/-- **A conversation:** what comes of moves made one after the other. -/
def conversation (p : Peers) : List Move → List Exchange
  | [] => []
  | m :: ms => p.exchange m :: conversation (p.exchange m).peers ms

end Peers

namespace Exchange

/-- What the sender emitted is within the receiver's limit, and not longer than memory allows. -/
def Fits (limit : UInt64) (x : Exchange) : Prop :=
  ∀ c sealed, x.move = .call c → x.sent = some (.ok (some sealed)) →
    c.plaintext.length ≤ limit.toNat ∧ sealed.length < UInt64.size

/-- Bytes that were offered besides were refused. -/
def NoiseRefused (x : Exchange) : Prop :=
  ∀ sealed aad, x.move = .offer sealed aad → ∃ fault, x.received = some (.error fault)

/-- **What came out is what went in:** for each chunk that was emitted the receiver got the
plaintext and the tag of the call, and each time the sender replaced its subkey the receiver did
so too. -/
structure Faithful (x : Exchange) : Prop where
  chunk : ∀ c sealed, x.move = .call c → x.sent = some (.ok (some sealed)) →
    ∃ tag, c.tag? = some tag ∧ x.received = some (.ok (some (c.plaintext, tag)))
  rekey : ∀ c, x.move = .call c → x.sent = some (.ok none) → x.received = some (.ok none)

end Exchange

/-! ## One step -/

namespace Peers

variable {p : Peers}

/-- A call of the sender, relayed to a receiver that is in step with it. -/
theorem exchange_call (h : p.sender.InStep p.receiver) (c : SenderCall)
    (hfits : (p.exchange (.call c)).Fits p.receiver.maxChunkLen) :
    (p.exchange (.call c)).Faithful ∧
      (p.exchange (.call c)).peers.sender.InStep (p.exchange (.call c)).peers.receiver ∧
      (p.exchange (.call c)).peers.receiver.maxChunkLen = p.receiver.maxChunkLen := by
  have hwent := c.went p.sender
  rw [exchange] at hfits ⊢
  generalize c.on p.sender = o at hfits hwent ⊢
  cases hwent with
  | refused fault =>
    refine ⟨⟨?_, ?_⟩, h, rfl⟩
    · intro _ _ _ hsent
      cases hsent
    · intro _ _ hsent
      cases hsent
  | rekeyed hcall hphase =>
    simp only [SenderCall.relayed, h.rekey_mirrored hphase]
    refine ⟨⟨?_, ?_⟩, h.rotate, rfl⟩
    · intro _ _ _ hsent
      cases hsent
    · intro _ _ _
      rfl
  | @emitted tag htag hphase hlen =>
    obtain ⟨hlimit, hsize⟩ := hfits c _ rfl rfl
    simp only [SenderCall.relayed, h.chunk_pulled hphase hlimit hsize]
    refine ⟨⟨?_, ?_⟩, h.advance tag, Stream.maxChunkLen_advance _ _⟩
    · intro c' _ hmove _
      obtain rfl := Move.call.inj hmove
      exact ⟨tag, htag, rfl⟩
    · intro _ _ hsent
      cases hsent

/-- **One step:** it is faithful and both sides stay in step. -/
theorem exchange_inStep (h : p.sender.InStep p.receiver) (m : Move)
    (hfits : (p.exchange m).Fits p.receiver.maxChunkLen) (hnoise : (p.exchange m).NoiseRefused) :
    (p.exchange m).Faithful ∧ (p.exchange m).peers.sender.InStep (p.exchange m).peers.receiver ∧
      (p.exchange m).peers.receiver.maxChunkLen = p.receiver.maxChunkLen := by
  cases m with
  | call c => exact exchange_call h c hfits
  | offer sealed aad =>
    -- what is refused changes nothing
    obtain ⟨fault, hfault⟩ := hnoise sealed aad rfl
    have hstate := (ReceiverCall.state_of_error (Option.some.inj hfault)).1
    refine ⟨⟨?_, ?_⟩, ?_, ?_⟩
    · intro _ _ hmove
      cases hmove
    · intro _ hmove
      cases hmove
    · rw [exchange, hstate]
      exact h
    · rw [exchange, hstate]

/-- Every step of a conversation of peers in step is faithful and leaves them in step. -/
theorem conversation_inStep {limit : UInt64} (moves : List Move) :
    ∀ {p : Peers}, p.sender.InStep p.receiver → p.receiver.maxChunkLen = limit →
      (∀ x ∈ p.conversation moves, x.Fits limit) →
      (∀ x ∈ p.conversation moves, x.NoiseRefused) →
      ∀ x ∈ p.conversation moves, x.Faithful ∧ x.peers.sender.InStep x.peers.receiver := by
  induction moves with
  | nil =>
    intro p _ _ _ _ x hx
    cases hx
  | cons m ms ih =>
    intro p h hlimit hfits hnoise x hx
    have hfirst := hfits _ (List.mem_cons_self ..)
    have hrefused := hnoise _ (List.mem_cons_self ..)
    rw [← hlimit] at hfirst
    obtain ⟨hfaithful, hstep, hkept⟩ := exchange_inStep h m hfirst hrefused
    rcases List.mem_cons.mp hx with rfl | hx
    · exact ⟨hfaithful, hstep⟩
    · exact ih hstep (hkept.trans hlimit) (fun y hy => hfits y (List.mem_cons_of_mem _ hy))
        (fun y hy => hnoise y (List.mem_cons_of_mem _ hy)) x hx

/-- What holds of every exchange over these moves holds throughout a conversation. -/
theorem forall_conversation {P : Exchange → Prop} (moves : List Move)
    (h : ∀ p : Peers, ∀ m ∈ moves, P (p.exchange m)) :
    ∀ p : Peers, ∀ x ∈ p.conversation moves, P x := by
  induction moves with
  | nil =>
    intro p x hx
    cases hx
  | cons m ms ih =>
    intro p x hx
    rcases List.mem_cons.mp hx with rfl | hx
    · exact h p m (List.mem_cons_self ..)
    · exact ih (fun q n hn => h q n (List.mem_cons_of_mem _ hn)) _ x hx

/-- What a call emits fits if its plaintext does, whatever the state. -/
theorem exchange_fits {limit : UInt64} {c : SenderCall}
    (hlimit : c.plaintext.length ≤ limit.toNat)
    (hsize : c.plaintext.length + chunkOverhead < UInt64.size) :
    (p.exchange (.call c)).Fits limit := by
  intro c' sealed hmove hsent
  have hwent := c.went p.sender
  rw [move_exchange] at hmove
  rw [exchange] at hsent
  generalize c.on p.sender = o at hsent hwent
  cases hwent with
  | refused => cases hsent
  | rekeyed => cases hsent
  | emitted =>
    obtain rfl := Move.call.inj hmove
    obtain rfl := Option.some.inj (Except.ok.inj (Option.some.inj hsent))
    exact ⟨hlimit, by rwa [Stream.length_chunk]⟩

/-- Bytes that are too short for a chunk are refused, whatever the state. -/
theorem exchange_noiseRefused {sealed aad : Bytes} (h : sealed.length < chunkOverhead) :
    (p.exchange (.offer sealed aad)).NoiseRefused := by
  intro sealed' aad' hmove
  obtain ⟨rfl, rfl⟩ := Move.offer.inj ((move_exchange ..).symm.trans hmove)
  have hpull := p.receiver.pulled sealed aad
  rw [exchange, ReceiverCall.on]
  generalize p.receiver.pull sealed aad = o at hpull
  cases hpull with
  | finalized => exact ⟨_, rfl⟩
  | malformed => exact ⟨_, rfl⟩
  | forged => exact ⟨_, rfl⟩
  | unknownTag => exact ⟨_, rfl⟩
  | accepted _ _ hsealed =>
    rw [hsealed, Stream.length_chunk] at h
    omega

end Peers

/-! ## The whole conversation -/

/-- **The two sides stay in step.** A sender draws a header and a receiver is given it. Their
numbers of chunks per subkey agree once they are brought into the accepted range, and what the
sender emits is within the receiver's limit. Then in each conversation every chunk comes out as
it went in, and after every step both sides are in step, whatever calls of the sender fail and
whatever other bytes the receiver refuses. -/
theorem peers_stay_in_step {ρ : Type} [Entropy ρ] {random : ρ} {header : Header}
    (hdraw : (Entropy.draw random 24).1 = .ok header) (key : SessionKey) {sc rc : Config}
    (hclamp : max 1 (min sc.rekeyInterval.toNat Config.maxRekeyInterval.toNat) =
      max 1 (min rc.rekeyInterval.toNat Config.maxRekeyInterval.toNat))
    (moves : List Move)
    (hfits : ∀ x ∈ Peers.conversation ⟨.fresh key header sc, .fresh key header rc⟩ moves,
      x.Fits rc.maxChunkLen)
    (hnoise : ∀ x ∈ Peers.conversation ⟨.fresh key header sc, .fresh key header rc⟩ moves,
      x.NoiseRefused) :
    (Stream.sender key random sc).result = .ok (header, .fresh key header sc) ∧
      Stream.receiver key header.bytes rc = .ok (.fresh key header rc) ∧
      (Stream.fresh key header sc).InStep (.fresh key header rc) ∧
      ∀ x ∈ Peers.conversation ⟨.fresh key header sc, .fresh key header rc⟩ moves,
        x.Faithful ∧ x.peers.sender.InStep x.peers.receiver := by
  have hceiling : sc.ceiling = rc.ceiling := by
    apply UInt32.toNat.inj
    rw [Config.toNat_ceiling, Config.toNat_ceiling, hclamp]
  have hstep := Stream.InStep.fresh key header hceiling
  exact ⟨Stream.sender_eq_fresh hdraw key sc, Stream.receiver_eq_fresh key header rc, hstep,
    Peers.conversation_inStep moves hstep rfl hfits hnoise⟩

/-- An interval of zero and one of one agree, and a conversation may hold noise, failed calls and
a replaced subkey. -/
theorem peers_stay_in_step_at_the_least_intervals :
    (Stream.sender (.zero 32) (Tape.mk (Octets.zero 24).bytes) { rekeyInterval := 0 }).result =
        .ok (.zero 24, .fresh (.zero 32) (.zero 24) { rekeyInterval := 0 }) ∧
      Stream.receiver (.zero 32) (Octets.zero 24).bytes { rekeyInterval := 1 } =
        .ok (.fresh (.zero 32) (.zero 24) { rekeyInterval := 1 }) ∧
      (Stream.fresh (.zero 32) (.zero 24) { rekeyInterval := 0 }).InStep
        (.fresh (.zero 32) (.zero 24) { rekeyInterval := 1 }) ∧
      ∀ x ∈ Peers.conversation
          ⟨.fresh (.zero 32) (.zero 24) { rekeyInterval := 0 },
            .fresh (.zero 32) (.zero 24) { rekeyInterval := 1 }⟩
          [.offer [7] [], .call (.push [1] .message []), .call (.pushRaw [] 9 []), .call .rekey],
        x.Faithful ∧ x.peers.sender.InStep x.peers.receiver := by
  refine peers_stay_in_step (ρ := Tape) rfl _ (by decide) _ ?_ ?_
  · refine Peers.forall_conversation _ ?_ _
    intro p m hm
    simp only [List.mem_cons, List.not_mem_nil, or_false] at hm
    rcases hm with rfl | rfl | rfl | rfl
    · intro _ _ hmove
      rw [Peers.move_exchange] at hmove
      cases hmove
    · exact Peers.exchange_fits (by decide) (by decide)
    · exact Peers.exchange_fits (by decide) (by decide)
    · exact Peers.exchange_fits (by decide) (by decide)
  · refine Peers.forall_conversation _ ?_ _
    intro p m hm
    simp only [List.mem_cons, List.not_mem_nil, or_false] at hm
    rcases hm with rfl | rfl | rfl | rfl
    · exact Peers.exchange_noiseRefused (by decide)
    all_goals
      intro _ _ hmove
      rw [Peers.move_exchange] at hmove
      cases hmove

end AeadStream
