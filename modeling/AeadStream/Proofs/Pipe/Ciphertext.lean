import AeadStream.Proofs.Pipe.RoundTrip
import AeadStream.Proofs.Stream.Rotations

/-!
# The closed form of the ciphertext

Encryption moves a stream on from chunk to chunk. What it writes is given here without a stream:
the frame at each place is a function of the place, for the place tells the number of rotations
and the counter by division.

* `Stream.Reached` — where a stream is after so many chunks of data, kept by each of them;
* `wire_of_reached` — the wire of frames of data by their places;
* `ciphertext_is_closed` — the ciphertext by its places.
-/

namespace AeadStream

/-! ## After so many chunks -/

/-- **Where a stream is** after `n` chunks of data, if it began as `first`. -/
structure Stream.Reached (s first : Stream) (n : Nat) : Prop where
  placed : s.Placed first (n / first.ceiling.toNat)
  counter : s.counter.toNat = n % first.ceiling.toNat

namespace Stream.Reached

variable {s first : Stream} {n : Nat}

theorem fresh (key : SessionKey) (header : Header) (config : Config) :
    (Stream.fresh key header config).Reached (.fresh key header config) 0 := by
  refine ⟨?_, (Nat.zero_mod _).symm⟩
  rw [Nat.zero_div]
  exact .fresh key header config

/-- **One chunk of data** moves a stream on to the next place. The last one of an epoch brings the
rotation. -/
theorem advance (h : s.Reached first n) : (s.advance .message).1.Reached first (n + 1) := by
  obtain ⟨hplaced, hcounter⟩ := h
  have hbelow := UInt32.lt_iff_toNat_lt.mp hplaced.below
  have hpos : 0 < first.ceiling.toNat := by
    rw [hplaced.ceiling] at hbelow
    omega
  have hcount : (s.counter + 1).toNat = n % first.ceiling.toNat + 1 := by
    rw [hplaced.toNat_counter_add_one, hcounter]
  have hn := Nat.mod_add_div n first.ceiling.toNat
  have hadv := s.advanced .message
  generalize s.advance .message = moved at hadv
  cases hadv with
  | counted _ hlt =>
    have hmod := UInt32.lt_iff_toNat_lt.mp hlt
    rw [hcount, hplaced.ceiling] at hmod
    obtain ⟨hdiv, hnext⟩ : (n + 1) / first.ceiling.toNat = n / first.ceiling.toNat ∧
        (n + 1) % first.ceiling.toNat = n % first.ceiling.toNat + 1 :=
      (Nat.div_mod_unique hpos).mpr ⟨by omega, hmod⟩
    exact ⟨hdiv ▸ ⟨hplaced.subkey, hplaced.baseNonce, hplaced.ceiling, hlt⟩,
      hcount.trans hnext.symm⟩
  | forced _ hle =>
    have hfull := UInt32.le_iff_toNat_le.mp hle
    rw [hcount, hplaced.ceiling] at hfull
    have hlt := Nat.mod_lt n hpos
    obtain ⟨hdiv, hmod⟩ : (n + 1) / first.ceiling.toNat = n / first.ceiling.toNat + 1 ∧
        (n + 1) % first.ceiling.toNat = 0 := by
      refine (Nat.div_mod_unique hpos).mpr ⟨?_, hpos⟩
      rw [Nat.mul_succ]
      omega
    exact ⟨hdiv ▸ hplaced.rotate, hmod.symm⟩

end Stream.Reached

namespace Pipe

open AeadStream.Frame

/-! ## Frames by their places -/

/-- **The frame at place `i`** of a stream whose subkey is replaced after every `interval` chunks of
data. -/
def frameAt (keys : StreamKeys) (interval i : Nat) (tag : UInt8) (plaintext : Bytes) : Bytes :=
  ofSealed (sealChunk (subkeyAfter keys.subkey keys.baseNonce (i / interval))
    (chunkNonce keys.baseNonce (UInt32.ofNat (i % interval))) tag plaintext [])

section

variable {keys : StreamKeys} {config : Config} {s : Stream} {i : Nat}

/-- A stream that reached a place gives the frame there. -/
theorem ofSealed_of_reached (h : s.Reached (.initial keys config) i) (plaintext : Bytes)
    (tag : Tag) :
    ofSealed (s.chunk plaintext tag []) =
      frameAt keys config.ceiling.toNat i tag.toByte plaintext := by
  obtain ⟨⟨hsubkey, hbase, -, -⟩, hcounter⟩ := h
  have hnonce : s.nonce = chunkNonce keys.baseNonce (UInt32.ofNat (i % config.ceiling.toNat)) := by
    rw [Stream.nonce, hbase, ← UInt32.ofNat_toNat (x := s.counter), hcounter]
    rfl
  rw [Stream.chunk, hsubkey, hnonce]
  rfl

/-- **The wire of frames of data** is made of the frames at their places, and behind it the stream
is at the next place. -/
theorem wire_of_reached (piece : Nat → Bytes) (count : Nat) :
    ∀ {s : Stream} {i : Nat}, s.Reached (.initial keys config) i →
      wire s ((List.range' i count).map fun j => (piece j, .message)) =
          (List.range' i count).flatMap
            (fun j => frameAt keys config.ceiling.toNat j 0x00 (piece j)) ∧
        (behind s ((List.range' i count).map fun j => (piece j, .message))).Reached
          (.initial keys config) (i + count) := by
  induction count with
  | zero => exact fun h => ⟨rfl, h⟩
  | succ count ih =>
    intro s i h
    obtain ⟨hwire, hreached⟩ := ih h.advance
    rw [List.range'_succ, List.map_cons, List.flatMap_cons, wire, behind,
      ofSealed_of_reached h, hwire]
    rw [Nat.add_right_comm] at hreached
    exact ⟨rfl, hreached⟩

end

/-- **The ciphertext** of a plaintext, by the places of its frames. -/
def ciphertext (keys : StreamKeys) (header : Header) (interval size : Nat) (plaintext : Bytes) :
    Bytes :=
  let count := plaintext.length ⌈/⌉ size
  header.bytes ++
    (List.range count).flatMap (fun i => frameAt keys interval i 0x00 (pieceAt size plaintext i)) ++
    frameAt keys interval count 0x03 (Epilogue.ofPlaintext plaintext).encode

/-- The frames of an encryption have this form on the wire. -/
theorem wire_allFrames (key : SessionKey) (header : Header) (config : Config) (chunkSize : Nat)
    (plaintext : Bytes) :
    header.bytes ++ wire (.fresh key header config) (allFrames chunkSize plaintext) =
      ciphertext (.derive key header.bytes) header config.ceiling.toNat (max chunkSize 1)
        plaintext := by
  obtain ⟨hdata, hreached⟩ := wire_of_reached (pieceAt (max chunkSize 1) plaintext)
    (plaintext.length ⌈/⌉ max chunkSize 1) (.fresh key header config)
  rw [← List.range_eq_range'] at hdata hreached
  rw [Nat.zero_add] at hreached
  rw [allFrames, wire_append, dataFrames_eq_map (max_one_ne_zero chunkSize), wire, wire,
    List.append_nil, ofSealed_of_reached hreached]
  rw [hdata, ← List.append_assoc]
  rfl

/-! ## Everything is encrypted -/

variable {plaintext : Bytes}

/-- **Nothing is left** of what a source delivers once its pieces are written. -/
theorem rest_of_writePieces {size : Nat} (hsize : size ≠ 0) {source : Source} {w : Writer}
    {done written : List Bytes} (h : (writePieces size source w done).result = .ok written) :
    ∀ {plaintext : Bytes}, source.Delivers plaintext none →
      (writePieces size source w done).state.1.rest = [] := by
  fun_induction writePieces size source w done with
  | case1 => cases h
  | case2 source w done source' hfill =>
    intro plaintext hsource
    obtain ⟨source'', hfill', hnext⟩ := hsource.fill size
    obtain ⟨hnil, rfl⟩ := Prod.mk.inj (hfill.symm.trans hfill')
    have hplaintext := (List.take_eq_nil_iff.mp (Except.ok.inj hnil).symm).resolve_left hsize
    rw [hplaintext, List.drop_nil] at hnext
    exact hnext.healthy.2
  | case3 => cases h
  | case4 source w done b bs source' hfill sent hresult hshort =>
    intro plaintext hsource
    obtain ⟨source'', hfill', hnext⟩ := hsource.fill size
    obtain ⟨hpiece, rfl⟩ := Prod.mk.inj (hfill.symm.trans hfill')
    rw [Except.ok.inj hpiece, List.length_take] at hshort
    rw [List.drop_of_length_le (by omega)] at hnext
    exact hnext.healthy.2
  | case5 source w done b bs source' hfill sent hresult hshort ih =>
    intro plaintext hsource
    obtain ⟨source'', hfill', hnext⟩ := hsource.fill size
    obtain ⟨-, rfl⟩ := Prod.mk.inj (hfill.symm.trans hfill')
    exact ih h hnext

section

variable {ρ : Type} [Entropy ρ] {random : ρ} {header : Header} {ends : Ends} {key : SessionKey}
  {config : Config} {chunkSize : Nat} {epilogue : Epilogue}

/-- Nothing is left once an encryption succeeded. -/
theorem rest_of_encrypt (hsource : ends.source.Delivers plaintext none)
    (h : (encrypt ends key random config chunkSize).result = .ok epilogue) :
    (encrypt ends key random config chunkSize).state.source.rest = [] := by
  rw [encrypt] at h ⊢
  cases hstart : (Writer.start ends.sink key random config).result with
  | error fault =>
    simp only [hstart] at h
    cases h
  | ok w =>
    cases hpieces : (writePieces (max chunkSize 1) ends.source w []).result with
    | error fault =>
      simp only [hstart, hpieces] at h
      cases h
    | ok written =>
      have hrest := rest_of_writePieces (max_one_ne_zero chunkSize) hpieces hsource
      simp only [hpieces]
      split
      · exact hrest
      · exact hrest

/-- **An encryption that succeeds** is one of the whole plaintext, whose frames fit. -/
theorem whole_of_encrypt (hdraw : (Entropy.draw random 24).1 = .ok header)
    (hsource : ends.source.Healthy) (hrest : ends.source.rest = plaintext)
    (h : (encrypt ends key random config chunkSize).result = .ok epilogue) :
    epilogue = .ofPlaintext plaintext ∧ config.maxChunkLen ≠ 0 ∧
      AllFit (.fresh key header config) (allFrames chunkSize plaintext) := by
  obtain ⟨header', plaintext', hdraw', hconfig, hepilogue, hsent, hfit, -⟩ := sent_of_encrypt h
  obtain rfl : header = header' := Except.ok.inj (hdraw.symm.trans hdraw')
  rw [rest_of_encrypt (hsource.delivers hrest) h, List.append_nil, hrest] at hsent
  subst hsent
  exact ⟨hepilogue, hconfig, hfit⟩

/-- **The closed form of the ciphertext.** If a plaintext is encrypted into some sink, it is
encrypted on all healthy ends, with the same ciphertext: the header, a frame for each piece of the
plaintext with the subkey and the nonce of its place, and the frame of the epilogue in the place
behind them. -/
theorem ciphertext_is_closed (hdraw : (Entropy.draw random 24).1 = .ok header)
    (hsource : ends.source.Healthy) (hrest : ends.source.rest = plaintext)
    (h : (encrypt ends key random config chunkSize).result = .ok epilogue) :
    epilogue = .ofPlaintext plaintext ∧
      Consecutive (max chunkSize 1) plaintext (plaintext.length ⌈/⌉ max chunkSize 1)
        (pieceAt (max chunkSize 1) plaintext) ∧
      (∀ i < plaintext.length ⌈/⌉ max chunkSize 1,
        (pieceAt (max chunkSize 1) plaintext i).length + chunkOverhead < UInt32.size) ∧
      epilogue.encode.length + chunkOverhead < UInt32.size ∧
      ∀ other : Ends, other.source.Healthy → other.source.rest = plaintext → other.sink.Healthy →
        (encrypt other key random config chunkSize).result = .ok epilogue ∧
        (encrypt other key random config chunkSize).state.sink.contents = other.sink.contents ++
          ciphertext (.derive key header.bytes) header
            (max 1 (min config.rekeyInterval.toNat Config.maxRekeyInterval.toNat))
            (max chunkSize 1) plaintext := by
  obtain ⟨rfl, hconfig, hfit⟩ := whole_of_encrypt hdraw hsource hrest h
  have hsize := max_one_ne_zero chunkSize
  obtain ⟨hdata, hlast⟩ := List.forall_mem_append.mp hfit.lt_size
  rw [dataFrames_eq_map hsize] at hdata
  refine ⟨rfl, consecutive_pieceAt hsize plaintext, fun i hi => ?_, ?_,
    fun other hsource hrest hsink => ?_⟩
  · exact hdata _ (List.mem_map_of_mem (List.mem_range.mpr hi))
  · exact hlast _ (List.mem_singleton_self _)
  · rw [← Config.toNat_ceiling, ← wire_allFrames]
    exact encrypt_of_allFit hdraw hconfig hfit (hsource.delivers hrest) hsink

/-- Three bytes in pieces of one byte, with a rotation after two of them: the last piece and the
epilogue are in the second epoch. -/
theorem ciphertext_is_closed_for_three_bytes :
    (Entropy.draw (Tape.mk (Octets.zero 24).bytes) 24).1 = .ok (Octets.zero 24) ∧
      threeBytes.source.Healthy ∧ threeBytes.source.rest = [1, 2, 3] ∧
      (encrypt threeBytes (.zero 32) (Tape.mk (Octets.zero 24).bytes)
        { rekeyInterval := 2, maxChunkLen := 88 } 0).result = .ok (.ofPlaintext [1, 2, 3]) ∧
      (encrypt threeBytes (.zero 32) (Tape.mk (Octets.zero 24).bytes)
        { rekeyInterval := 2, maxChunkLen := 88 } 0).state.sink.contents =
          [] ++ ciphertext (.derive (.zero 32) (Octets.zero 24).bytes) (.zero 24) 2 1 [1, 2, 3] := by
  have hdraw : (Entropy.draw (Tape.mk (Octets.zero 24).bytes) 24).1 = .ok (Octets.zero 24) := rfl
  have hsource : threeBytes.source.Healthy := ⟨by decide, nofun, rfl⟩
  have hsink : threeBytes.sink.Healthy := ⟨by decide, by decide, rfl, rfl⟩
  have hsuits : Suits 0 { rekeyInterval := 2, maxChunkLen := 88 } [1, 2, 3] :=
    ⟨by decide, by decide, Epilogue.length_encode_ofPlaintext_le _⟩
  have hencrypt := hsuits.encrypt hdraw (.zero 32) threeBytes (hsource.delivers rfl) hsink
  obtain ⟨-, -, -, -, hclosed⟩ := ciphertext_is_closed hdraw hsource rfl hencrypt.1
  exact ⟨hdraw, hsource, rfl, hclosed threeBytes hsource rfl hsink⟩

end

end Pipe

end AeadStream
