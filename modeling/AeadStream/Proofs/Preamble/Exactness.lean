import AeadStream.Proofs.Preamble
import AeadStream.Proofs.Sink

/-!
# A preamble is its bytes

Which 28 bytes are a preamble is a matter of three numbers in them. These bytes are read as the one
preamble that is written as them, and a preamble that was generated is read back as itself, so that
both sides derive the same key. The bounds on the numbers are the same in all three places: where a
preamble is generated, where it is read, and where a key is derived.

* `Argon2.Costs.check_eq_ok_iff` — the bounds;
* `ReadsExactly`, `GeneratesExactly` — the two directions;
* `preamble_is_its_bytes` — both of them.
-/

namespace AeadStream

/-! ## Bounds on costs -/

namespace Argon2.Costs

/-- **The bounds** on the memory in KiB, the passes and the lanes: what a receiver spends at most,
and what the hash needs at least. -/
structure Within (memory passes lanes : Nat) : Prop where
  memory_ge : 8 ≤ memory
  memory_ge_lanes : 8 * lanes ≤ memory
  memory_le : memory ≤ 4194304
  passes_ge : 1 ≤ passes
  passes_le : passes ≤ 64
  lanes_ge : 1 ≤ lanes
  lanes_le : lanes ≤ 16

/-- Costs are within the bounds. -/
def Accepted (c : Costs) : Prop := Within c.memory.toNat c.passes.toNat c.lanes.toNat

variable {c : Costs}

/-- The limits are the upper bounds. -/
theorem exceedsLimits_eq_false_iff :
    c.exceedsLimits = false ↔
      c.memory.toNat ≤ 4194304 ∧ c.passes.toNat ≤ 64 ∧ c.lanes.toNat ≤ 16 := by
  have hmemory : maxMemory.toNat = 4194304 := rfl
  have hpasses : maxPasses.toNat = 64 := rfl
  have hlanes : maxLanes.toNat = 16 := rfl
  simp only [exceedsLimits, Bool.or_eq_false_iff, decide_eq_false_iff_not,
    UInt32.lt_iff_toNat_lt, hmemory, hpasses, hlanes]
  omega

/-- The hash is defined from the lower bounds on. -/
theorem fault?_eq_none_iff :
    c.fault? = none ↔
      8 ≤ c.memory.toNat ∧ 8 * c.lanes.toNat ≤ c.memory.toNat ∧ 1 ≤ c.passes.toNat ∧
        1 ≤ c.lanes.toNat := by
  have height : (8 : UInt32).toNat = 8 := rfl
  have hzero : (0 : UInt32).toNat = 0 := rfl
  simp only [fault?, UInt32.lt_iff_toNat_lt, ← UInt32.toNat_inj, height, hzero]
  split
  · exact ⟨nofun, by omega⟩
  split
  · exact ⟨nofun, by omega⟩
  split
  · exact ⟨nofun, by omega⟩
  · exact ⟨fun _ => by omega, fun _ => rfl⟩

/-- **The check accepts** exactly the costs within the bounds. -/
theorem check_eq_ok_iff : c.check = .ok () ↔ c.Accepted := by
  have hbounds : c.Accepted ↔ c.exceedsLimits = false ∧ c.fault? = none := by
    rw [exceedsLimits_eq_false_iff, fault?_eq_none_iff]
    constructor
    · rintro ⟨h1, h2, h3, h4, h5, h6, h7⟩
      exact ⟨⟨h3, h5, h7⟩, h1, h2, h4, h6⟩
    · rintro ⟨⟨h3, h5, h7⟩, h1, h2, h4, h6⟩
      exact ⟨h1, h2, h3, h4, h5, h6, h7⟩
  rw [hbounds, check]
  split
  · next hexceeds => simp [hexceeds]
  · next hexceeds =>
    rw [Bool.not_eq_true] at hexceeds
    cases hfault : c.fault? with
    | some fault => exact ⟨nofun, nofun⟩
    | none => exact ⟨fun _ => ⟨hexceeds, rfl⟩, fun _ => rfl⟩

/-- Costs out of bounds are refused as such. -/
theorem check_of_not_accepted (h : ¬c.Accepted) :
    ∃ reason, c.check = .error (.password reason) := by
  rw [← check_eq_ok_iff] at h
  rw [check] at h ⊢
  split
  · exact ⟨_, rfl⟩
  · next hexceeds =>
    rw [if_neg hexceeds] at h
    cases hfault : c.fault? with
    | some fault => exact ⟨_, rfl⟩
    | none =>
      rw [hfault] at h
      exact absurd rfl h

end Argon2.Costs

namespace Preamble

open Argon2 (Costs)

variable {source : Source} {bytes : Bytes} {ending : Option IoFault}

/-! ## Numbers in bytes -/

/-- The number in the four bytes at this offset, the most significant first. -/
def wordAt (offset : Nat) (bytes : Bytes) : Nat := natOfBe ((bytes.drop offset).take 4)

/-- Four bytes hold a number of 32 bits. -/
theorem toNat_wordAt (offset : Nat) (bytes : Bytes) :
    (UInt32.ofNat (wordAt offset bytes)).toNat = wordAt offset bytes := by
  have hlt := natOfBe_lt ((bytes.drop offset).take 4)
  have hle : ((bytes.drop offset).take 4).length ≤ 4 := List.length_take_le ..
  have hpower : 256 ^ ((bytes.drop offset).take 4).length ≤ 256 ^ 4 :=
    Nat.pow_le_pow_right (by decide) hle
  exact UInt32.toNat_ofNat_of_lt' (Nat.lt_of_lt_of_le hlt hpower)

/-- What is behind the word does not count. -/
theorem wordAt_take {offset n : Nat} (h : offset + 4 ≤ n) (bytes : Bytes) :
    wordAt offset (bytes.take n) = wordAt offset bytes := by
  rw [wordAt, wordAt, List.drop_take, List.take_take, Nat.min_eq_left (by omega)]

/-- **The numbers in a preamble's bytes** are within the bounds. -/
def WordsAccepted (bytes : Bytes) : Prop :=
  Costs.Within (wordAt 16 bytes) (wordAt 20 bytes) (wordAt 24 bytes)

/-- The costs in the bytes are these numbers. -/
theorem accepted_ofBytes : (ofBytes (bytes.take size)).costs.Accepted ↔ WordsAccepted bytes := by
  have hmemory : (ofBytes (bytes.take size)).costs.memory.toNat = wordAt 16 (bytes.take size) :=
    toNat_wordAt 16 _
  have hpasses : (ofBytes (bytes.take size)).costs.passes.toNat = wordAt 20 (bytes.take size) :=
    toNat_wordAt 20 _
  have hlanes : (ofBytes (bytes.take size)).costs.lanes.toNat = wordAt 24 (bytes.take size) :=
    toNat_wordAt 24 _
  rw [Costs.Accepted, hmemory, hpasses, hlanes, WordsAccepted, wordAt_take (by decide),
    wordAt_take (by decide), wordAt_take (by decide)]

/-! ## Deriving -/

/-- **A preamble derives keys** from all passwords that are neither empty nor too long, and those
two are the only reasons for which it refuses one. -/
structure DerivesKeys (p : Preamble) : Prop where
  key : ∀ password : Bytes, password ≠ [] → password.length < UInt32.size →
    p.deriveKey password = .ok (Argon2.hash p.costs password p.salt.bytes)
  empty : p.deriveKey [] = .error (.password "password is empty")
  too_long : ∀ password : Bytes, UInt32.size ≤ password.length →
    p.deriveKey password = .error (.password "password is too long")

/-- Under accepted costs a preamble derives keys. -/
theorem derivesKeys {p : Preamble} (h : p.costs.Accepted) : p.DerivesKeys where
  key _ hne hlt := deriveKey_eq_ok hne hlt (Costs.check_eq_ok_iff.mpr h)
  empty := deriveKey_nil p
  too_long password hle := by
    have hne : password ≠ [] := by
      rintro rfl
      exact absurd hle (by decide)
    rw [deriveKey, if_neg hne, Costs.check_eq_ok_iff.mpr h]
    exact if_pos hle

/-! ## Reading -/

/-- **A preamble is read exactly** from a source that delivers these bytes and then stops. -/
structure ReadsExactly (source : Source) (bytes : Bytes) (ending : Option IoFault) : Prop where
  /-- it is read if and only if there are 28 bytes with numbers within the bounds -/
  reads_iff : (∃ p, (read source).1 = .ok p) ↔ 28 ≤ bytes.length ∧ WordsAccepted bytes
  /-- 28 bytes are consumed, whatever the numbers are -/
  consumed : 28 ≤ bytes.length → (read source).2.Delivers (bytes.drop 28) ending
  /-- what was read is written as the bytes that were consumed -/
  written : ∀ p, (read source).1 = .ok p → ∀ sink : Sink, sink.Healthy →
    ∃ sink', sink.writeAll p.encode = (.ok (), sink') ∧
      sink'.contents = sink.contents ++ bytes.take 28
  /-- fewer bytes are missed, or the source fails before -/
  short : bytes.length < 28 → (read source).1 = .error (.io (ending.getD .endOfInput))
  /-- numbers out of bounds are refused as such -/
  refused : 28 ≤ bytes.length → ¬WordsAccepted bytes →
    ∃ reason, (read source).1 = .error (.password reason)
  /-- no password is refused because of the costs -/
  derives : ∀ p, (read source).1 = .ok p → p.DerivesKeys

/-- From a source that delivers 28 bytes, these are read, and then the costs are checked. -/
theorem read_of_le (hsource : source.Delivers bytes ending) (hle : size ≤ bytes.length) :
    ∃ source', read source = ((ofBytes (bytes.take size)).costs.check.map fun _ =>
        ofBytes (bytes.take size), source') ∧ source'.Delivers (bytes.drop size) ending := by
  have hlen : (bytes.take size).length = size := by
    rw [List.length_take]
    omega
  rw [← List.take_append_drop size bytes] at hsource
  obtain ⟨source', hread, hnext⟩ := hsource.readExact
  rw [hlen] at hread
  exact ⟨source', by rw [read, hread], hnext⟩

/-- A preamble that was read has the bytes at the front and accepted costs. -/
theorem eq_ofBytes_of_read {p : Preamble} (hsource : source.Delivers bytes ending)
    (h : (read source).1 = .ok p) :
    size ≤ bytes.length ∧ p = ofBytes (bytes.take size) ∧ p.costs.Accepted := by
  by_cases hle : size ≤ bytes.length
  · obtain ⟨source', hread, -⟩ := read_of_le hsource hle
    rw [hread] at h
    cases hcheck : (ofBytes (bytes.take size)).costs.check with
    | error fault =>
      rw [hcheck] at h
      cases h
    | ok _ =>
      rw [hcheck] at h
      obtain rfl := Except.ok.inj h
      exact ⟨hle, rfl, Costs.check_eq_ok_iff.mp hcheck⟩
  · obtain ⟨source', hread⟩ := read_of_short hsource (Nat.not_le.mp hle)
    rw [hread] at h
    cases h

/-- Every source is read exactly. -/
theorem readsExactly (hsource : source.Delivers bytes ending) :
    ReadsExactly source bytes ending where
  reads_iff := by
    constructor
    · rintro ⟨p, h⟩
      obtain ⟨hle, rfl, haccepted⟩ := eq_ofBytes_of_read hsource h
      exact ⟨hle, accepted_ofBytes.mp haccepted⟩
    · rintro ⟨hle, hwords⟩
      obtain ⟨source', hread, -⟩ := read_of_le hsource hle
      rw [hread, Costs.check_eq_ok_iff.mpr (accepted_ofBytes.mpr hwords)]
      exact ⟨_, rfl⟩
  consumed hle := by
    obtain ⟨source', hread, hnext⟩ := read_of_le hsource hle
    rw [hread]
    exact hnext
  written p h sink hsink := by
    obtain ⟨hle, rfl, -⟩ := eq_ofBytes_of_read hsource h
    have hlen : (bytes.take size).length = size := by
      rw [List.length_take]
      omega
    obtain ⟨sink', hwrite, -, hcontents⟩ := hsink.writeAll (ofBytes (bytes.take size)).encode
    rw [encode_ofBytes hlen] at hcontents
    exact ⟨sink', hwrite, hcontents⟩
  short hlt := by
    obtain ⟨source', hread⟩ := read_of_short hsource hlt
    rw [hread]
  refused hle hwords := by
    obtain ⟨source', hread, -⟩ := read_of_le hsource hle
    rw [← accepted_ofBytes] at hwords
    obtain ⟨reason, hcheck⟩ := Costs.check_of_not_accepted hwords
    rw [hread, hcheck]
    exact ⟨reason, rfl⟩
  derives p h := derivesKeys (eq_ofBytes_of_read hsource h).2.2

/-! ## Generating -/

section

variable {ρ : Type} [Entropy ρ]

/-- **A preamble is generated exactly** from these costs and this source of random bytes. -/
structure GeneratesExactly (random : ρ) (costs : Costs) : Prop where
  /-- it is generated if and only if the costs are within the bounds and the salt is drawn -/
  generates_iff : ∀ p, (generate random costs).1 = .ok p ↔
    costs.Accepted ∧ p.costs = costs ∧ (Entropy.draw random 16).1 = .ok p.salt
  /-- nothing is drawn for costs out of bounds, which are refused as such -/
  undrawn : ¬costs.Accepted → ∃ reason,
    generate random costs = (.error (.password reason), random)
  /-- no salt, no preamble -/
  saltless : costs.Accepted → ∀ reason, (Entropy.draw random 16).1 = .error reason →
    (generate random costs).1 = .error (.stream (.noRandomness reason))
  /-- what is written of it is read as the same preamble, with anything behind it -/
  read_back : ∀ p, (generate random costs).1 = .ok p → ∀ sink : Sink, sink.Healthy →
    ∃ sink' wire, sink.writeAll p.encode = (.ok (), sink') ∧
      sink'.contents = sink.contents ++ wire ∧ wire.length = 28 ∧
      ∀ (source : Source) (back : Bytes) (ending : Option IoFault),
        source.Delivers (wire ++ back) ending →
        ∃ source', read source = (.ok p, source') ∧ source'.Delivers back ending
  /-- both sides derive the same key from every password, and none is refused because of the
  costs -/
  derives : ∀ p, (generate random costs).1 = .ok p → p.DerivesKeys ∧
    ∀ (source : Source) (back : Bytes) (ending : Option IoFault) (q : Preamble),
      source.Delivers (p.encode ++ back) ending → (read source).1 = .ok q →
      ∀ password : Bytes, q.deriveKey password = p.deriveKey password

/-- What is generated, and when. -/
theorem generate_eq_ok_iff {random : ρ} {costs : Costs} {p : Preamble} :
    (generate random costs).1 = .ok p ↔
      costs.Accepted ∧ p.costs = costs ∧ (Entropy.draw random 16).1 = .ok p.salt := by
  rw [← Costs.check_eq_ok_iff]
  constructor
  · intro h
    rw [generate] at h
    split at h
    · cases h
    · next hcheck =>
      split at h
      · cases h
      · next hdraw =>
        obtain rfl := Except.ok.inj h
        exact ⟨hcheck, rfl, by rw [hdraw]⟩
  · rintro ⟨hcheck, rfl, hsalt⟩
    rcases hdraw : Entropy.draw random 16 with ⟨drawn, random'⟩
    rw [hdraw] at hsalt
    obtain rfl : drawn = .ok p.salt := hsalt
    rw [generate_of_draw hcheck hdraw]

/-- Every preamble is generated exactly. -/
theorem generatesExactly (random : ρ) (costs : Costs) : GeneratesExactly random costs where
  generates_iff p := generate_eq_ok_iff
  undrawn h := by
    obtain ⟨reason, hcheck⟩ := Costs.check_of_not_accepted h
    exact ⟨reason, by rw [generate, hcheck]⟩
  saltless h reason hdraw := by
    rw [generate, Costs.check_eq_ok_iff.mpr h]
    rcases hrandom : Entropy.draw random 16 with ⟨drawn, random'⟩
    rw [hrandom] at hdraw
    obtain rfl : drawn = .error reason := hdraw
    rfl
  read_back p h sink hsink := by
    obtain ⟨haccepted, rfl, -⟩ := generate_eq_ok_iff.mp h
    obtain ⟨sink', hwrite, -, hcontents⟩ := hsink.writeAll p.encode
    refine ⟨sink', p.encode, hwrite, hcontents, length_encode p, ?_⟩
    intro source back ending hsource
    exact read_of_delivers (Costs.check_eq_ok_iff.mpr haccepted) hsource
  derives p h := by
    obtain ⟨haccepted, rfl, -⟩ := generate_eq_ok_iff.mp h
    refine ⟨derivesKeys haccepted, fun source back ending q hsource hread password => ?_⟩
    obtain ⟨source', hback, -⟩ := read_of_delivers (Costs.check_eq_ok_iff.mpr haccepted) hsource
    rw [hback] at hread
    obtain rfl := Except.ok.inj hread
    rfl

/-! ## Both directions -/

/-- **A preamble is its 28 bytes.** From a source that delivers any bytes, in any pieces and with
any interruptions, a preamble is read if and only if there are 28 of them and the three numbers in
them are within the bounds. Then 28 bytes are consumed, and they are what is written of the
preamble. And a preamble is generated from any costs if and only if these are within the same bounds
and a salt is drawn. It is read back as it was, so that both sides derive the same keys. -/
theorem preamble_is_its_bytes (hsource : source.Delivers bytes ending) (random : ρ)
    (costs : Costs) : ReadsExactly source bytes ending ∧ GeneratesExactly random costs :=
  ⟨readsExactly hsource, generatesExactly random costs⟩

end

/-- The least costs in 29 bytes that come in pieces. -/
def leastInPieces : Source where
  rest := (Preamble.mk (.zero 16) ⟨8, 1, 1⟩).encode ++ [7]
  turns := [.interrupt, .upTo 3, .interrupt]
  stride := some 5

/-- The least costs are read from a source that is interrupted and gives a few bytes at a time, and
a preamble with them is generated under a salt of zeros. -/
theorem preamble_is_its_bytes_in_pieces :
    leastInPieces.Delivers leastInPieces.rest none ∧
      (28 ≤ leastInPieces.rest.length ∧ WordsAccepted leastInPieces.rest) ∧
      ReadsExactly leastInPieces leastInPieces.rest none ∧
      GeneratesExactly (Tape.mk (List.replicate 16 0)) ⟨8, 1, 1⟩ := by
  have hsource : leastInPieces.Delivers leastInPieces.rest none :=
    ⟨by decide, by decide, .ended rfl rfl⟩
  have hwords : WordsAccepted leastInPieces.rest :=
    ⟨by decide, by decide, by decide, by decide, by decide, by decide, by decide⟩
  exact ⟨hsource, ⟨by decide, hwords⟩, preamble_is_its_bytes hsource _ _⟩

end Preamble

end AeadStream
