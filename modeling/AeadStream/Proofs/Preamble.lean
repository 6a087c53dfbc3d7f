import AeadStream.Bytes.Lemmas
import AeadStream.Password
import AeadStream.Proofs.Source

/-!
# The preamble is read back

A preamble of 28 bytes is read as the preamble that was written, if its costs are accepted. On less
than that the reading fails as its source does.

* `ofBytes_encode`, `encode_ofBytes` — the round trip, both ways;
* `read_of_delivers`, `read_of_short` — reading from a source;
* `taken_of_read` — what was read, from any source.
-/

namespace AeadStream.Preamble

variable {p : Preamble} {source : Source} {ending : Option IoFault}

@[simp] theorem length_encode (p : Preamble) : p.encode.length = size := by
  simp [encode, size]

/-- A word in front is read back from its four bytes. -/
theorem word_append (word : UInt32) (back : Bytes) :
    UInt32.ofNat (natOfBe ((beBytes 4 word.toNat ++ back).take 4)) = word := by
  have hword : word.toNat < 256 ^ 4 := word.toNat_lt
  rw [List.take_left' (length_beBytes ..), natOfBe_beBytes, Nat.mod_eq_of_lt hword,
    UInt32.ofNat_toNat]

/-- **A preamble is read back** from its bytes. -/
theorem ofBytes_encode (p : Preamble) : ofBytes p.encode = p := by
  have hsalt : Octets.padded 16 p.encode = p.salt := by
    refine Octets.ext ?_
    have hpadded : (Octets.padded 16 p.encode).bytes =
        (p.encode ++ List.replicate 16 0).take 16 := rfl
    rw [hpadded, encode]
    simp only [List.append_assoc]
    exact List.take_left' p.salt.length_bytes
  -- the words behind the salt, one after the other
  have h16 : p.encode.drop 16 = beBytes 4 p.costs.memory.toNat ++
      (beBytes 4 p.costs.passes.toNat ++ beBytes 4 p.costs.lanes.toNat) := by
    simp only [encode, List.append_assoc]
    exact List.drop_left' p.salt.length_bytes
  have h20 : p.encode.drop 20 =
      beBytes 4 p.costs.passes.toNat ++ beBytes 4 p.costs.lanes.toNat := by
    rw [← List.drop_drop (i := 4) (j := 16), h16]
    exact List.drop_left' (length_beBytes ..)
  have h24 : p.encode.drop 24 = beBytes 4 p.costs.lanes.toNat ++ [] := by
    rw [← List.drop_drop (i := 4) (j := 20), h20, List.append_nil]
    exact List.drop_left' (length_beBytes ..)
  rw [ofBytes]
  simp only [hsalt, h16, h20, h24, word_append]

/-- Four bytes are written back as the word that they hold. -/
theorem beBytes_word {bytes : Bytes} (hlen : bytes.length = 4) :
    beBytes 4 (UInt32.ofNat (natOfBe bytes)).toNat = bytes := by
  have hlt := natOfBe_lt bytes
  rw [hlen] at hlt
  rw [UInt32.toNat_ofNat_of_lt' hlt, ← hlen, beBytes_natOfBe]

/-- **28 bytes are written back** from the preamble that they are. -/
theorem encode_ofBytes {bytes : Bytes} (hlen : bytes.length = size) :
    (ofBytes bytes).encode = bytes := by
  rw [size] at hlen
  have hsalt : (Octets.padded 16 bytes).bytes = bytes.take 16 := by
    have hpadded : (Octets.padded 16 bytes).bytes = (bytes ++ List.replicate 16 0).take 16 := rfl
    rw [hpadded, List.take_append_of_le_length (by omega)]
  have hlast : (bytes.drop 24).take 4 = bytes.drop 24 := by
    refine List.take_of_length_le ?_
    rw [List.length_drop]
    omega
  have hword : ∀ offset ≤ 24, ((bytes.drop offset).take 4).length = 4 := by
    intro offset hle
    rw [List.length_take, List.length_drop]
    omega
  -- behind each word but the last there is the next one
  have hback : ∀ offset, (bytes.drop offset).take 4 ++ bytes.drop (offset + 4) =
      bytes.drop offset := by
    intro offset
    rw [← List.drop_drop, List.take_append_drop]
  have h20 : (bytes.drop 20).take 4 ++ bytes.drop 24 = bytes.drop 20 := hback 20
  have h16 : (bytes.drop 16).take 4 ++ bytes.drop 20 = bytes.drop 16 := hback 16
  rw [ofBytes, encode]
  simp only [hsalt, beBytes_word (hword 16 (by omega)), beBytes_word (hword 20 (by omega)),
    beBytes_word (hword 24 (by omega)), List.append_assoc]
  rw [hlast, h20, h16, List.take_append_drop]

/-! ## Reading -/

/-- **A preamble that is delivered is read,** if its costs are accepted. -/
theorem read_of_delivers {back : Bytes} (hcheck : p.costs.check = .ok ())
    (hsource : source.Delivers (p.encode ++ back) ending) :
    ∃ source', read source = (.ok p, source') ∧ source'.Delivers back ending := by
  obtain ⟨source', hread, hnext⟩ := hsource.readExact
  rw [length_encode] at hread
  refine ⟨source', ?_, hnext⟩
  rw [read, hread]
  simp only [ofBytes_encode, hcheck, Except.map]

/-- **Less than a preamble** is not read. -/
theorem read_of_short {bytes : Bytes} (hsource : source.Delivers bytes ending)
    (hlt : bytes.length < size) :
    ∃ source', read source = (.error (.io (ending.getD .endOfInput)), source') := by
  obtain ⟨source', hread⟩ := hsource.readExact_short hlt
  exact ⟨source', by rw [read, hread]⟩

/-- **A preamble that was read** was there, and its costs are accepted. -/
theorem taken_of_read {source' : Source} (h : read source = (.ok p, source')) :
    source.rest = p.encode ++ source'.rest ∧ p.costs.check = .ok () := by
  rw [read] at h
  split at h
  · cases h
  · next bytes source'' hread =>
    obtain ⟨hrest, hlen⟩ := Source.readExact_eq_ok hread
    obtain ⟨hresult, rfl⟩ := Prod.mk.inj h
    cases hcheck : (ofBytes bytes).costs.check with
    | error fault =>
      rw [hcheck] at hresult
      cases hresult
    | ok _ =>
      rw [hcheck] at hresult
      obtain rfl := Except.ok.inj hresult
      exact ⟨by rw [encode_ofBytes hlen, hrest], hcheck⟩

/-! ## Deriving -/

/-- A key comes from every password that is neither empty nor too long, under accepted costs. -/
theorem deriveKey_eq_ok {password : Bytes} (hne : password ≠ [])
    (hlt : password.length < UInt32.size) (hcheck : p.costs.check = .ok ()) :
    p.deriveKey password = .ok (Argon2.hash p.costs password p.salt.bytes) := by
  rw [deriveKey, if_neg hne, hcheck]
  exact if_neg (Nat.not_le.mpr hlt)

/-- No key comes from an empty password. -/
theorem deriveKey_nil (p : Preamble) :
    p.deriveKey [] = .error (.password "password is empty") := by
  rw [deriveKey, if_pos rfl]

/-! ## Generating -/

/-- A preamble that was generated has costs that are accepted. -/
theorem check_of_generate {ρ : Type} [Entropy ρ] {random random' : ρ} {costs : Argon2.Costs}
    (h : generate random costs = (.ok p, random')) : p.costs.check = .ok () := by
  rw [generate] at h
  split at h
  · cases h
  · next hcheck =>
    split at h
    · cases h
    · cases h
      exact hcheck

/-- Accepted costs and a salt that was drawn are a preamble. -/
theorem generate_of_draw {ρ : Type} [Entropy ρ] {random random' : ρ} {salt : Octets 16}
    {costs : Argon2.Costs} (hcheck : costs.check = .ok ())
    (hsalt : Entropy.draw random 16 = (.ok salt, random')) :
    generate random costs = (.ok ⟨salt, costs⟩, random') := by
  rw [generate, hcheck, hsalt]

end AeadStream.Preamble
