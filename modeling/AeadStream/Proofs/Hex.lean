import AeadStream.Proofs.Text
import Mathlib.Data.List.TakeWhile

/-!
# Hexadecimal text is read exactly

Bytes are denoted by the digits that are written of them, and by the same digits in the other case.
A text is read as these bytes and as no others. One that is not read has an odd number of bytes, or
a first byte that is no digit. All of this is about the bytes of a text, of which a character beyond
ASCII has several, none of them a digit.

* `decode_eq_ok_iff` — which texts are read, and as what;
* `decode_of_odd`, `decode_of_bad` — how the others are refused;
* `decode_cases` — there are no further cases;
* `denotes_utf8_iff`, `exists_denotes_iff` — the same about the characters of a text.
-/

namespace AeadStream.Hex

variable {text bytes : Bytes}

/-! ## Digits -/

/-- **A hexadecimal digit,** in either case. -/
def IsDigit (c : Char) : Prop := ∃ n < 16, c.toLower = digit n

/-- The character for which a byte of a text is taken. -/
def charOf (b : UInt8) : Char := Char.ofUInt8 b

/-- **Digits that denote bytes:** up to their case, they are those that are written. -/
def Denotes (cs : List Char) (bytes : Bytes) : Prop := cs.map Char.toLower = bytes.flatMap digits

/-- What holds of all 256 bytes. -/
theorem forall_byte {P : UInt8 → Prop} (h : ∀ k < 256, P (UInt8.ofNat k)) : ∀ b, P b := by
  intro b
  have hb := h b.toNat b.toNat_lt
  rwa [UInt8.ofNat_toNat] at hb

/-- A byte has the value of a digit if and only if it is this digit in either case. -/
theorem value?_eq_some_ofNat_iff {b : UInt8} {n : Nat} (hn : n < 16) :
    value? b = some (UInt8.ofNat n) ↔ (charOf b).toLower = digit n := by
  have hall : ∀ b, ∀ n < 16, value? b = some (UInt8.ofNat n) ↔ (charOf b).toLower = digit n :=
    forall_byte (by decide +kernel)
  exact hall b n hn

/-- A value is below sixteen. -/
theorem toNat_value?_lt {b v : UInt8} (h : value? b = some v) : v.toNat < 16 := by
  have hall : ∀ b, ∀ v ∈ value? b, v.toNat < 16 := forall_byte (by decide +kernel)
  exact hall b v h

/-- A byte has a value if and only if it is a digit. -/
theorem isDigit_iff {b : UInt8} : IsDigit (charOf b) ↔ ∃ v, value? b = some v := by
  constructor
  · rintro ⟨n, hn, hdigit⟩
    exact ⟨_, (value?_eq_some_ofNat_iff hn).mpr hdigit⟩
  · rintro ⟨v, hv⟩
    have hlt := toNat_value?_lt hv
    rw [← UInt8.ofNat_toNat (x := v)] at hv
    exact ⟨v.toNat, hlt, (value?_eq_some_ofNat_iff hlt).mp hv⟩

theorem value?_eq_none_iff {b : UInt8} : value? b = none ↔ ¬IsDigit (charOf b) := by
  rw [isDigit_iff, Option.eq_none_iff_forall_ne_some, not_exists]

/-- The digit of a value. -/
theorem toLower_of_value? {b v : UInt8} (h : value? b = some v) :
    (charOf b).toLower = digit v.toNat := by
  have hlt := toNat_value?_lt h
  rw [← UInt8.ofNat_toNat (x := v)] at h
  exact (value?_eq_some_ofNat_iff hlt).mp h

/-- The digits of a byte that was put together from two values. -/
theorem digits_of_values {h l : UInt8} (hh : h.toNat < 16) (hl : l.toNat < 16) :
    digits (16 * h + l) = [digit h.toNat, digit l.toNat] := by
  have hsum : (16 * h + l).toNat = 16 * h.toNat + l.toNat := by
    have h16 : (16 : UInt8).toNat = 16 := rfl
    rw [UInt8.toNat_add, UInt8.toNat_mul, h16]
    omega
  have hhigh : (16 * h.toNat + l.toNat) / 16 = h.toNat := by omega
  have hlow : (16 * h.toNat + l.toNat) % 16 = l.toNat := by omega
  rw [digits, hsum, hhigh, hlow]

/-- The byte that is put together from the values of its own digits. -/
theorem sum_of_digits (b : UInt8) :
    16 * UInt8.ofNat (b.toNat / 16) + UInt8.ofNat (b.toNat % 16) = b := by
  have hb : b.toNat < 256 := b.toNat_lt
  have h16 : (16 : UInt8).toNat = 16 := rfl
  apply UInt8.toNat.inj
  rw [UInt8.toNat_add, UInt8.toNat_mul, h16, UInt8.toNat_ofNat', UInt8.toNat_ofNat']
  omega

/-- Digits that denote bytes are twice as many. -/
theorem Denotes.length {cs : List Char} (h : Denotes cs bytes) :
    cs.length = 2 * bytes.length := by
  rw [← length_flatMap_digits, ← h, List.length_map]

/-- All of them are digits. -/
theorem Denotes.isDigit {cs : List Char} (h : Denotes cs bytes) : ∀ c ∈ cs, IsDigit c := by
  intro c hmem
  have hdigit : c.toLower ∈ bytes.flatMap digits := by
    rw [← h]
    exact List.mem_map_of_mem hmem
  obtain ⟨b, -, hb⟩ := List.mem_flatMap.mp hdigit
  have hlt : b.toNat < 256 := b.toNat_lt
  simp only [digits, List.mem_cons, List.not_mem_nil, or_false] at hb
  rcases hb with hb | hb
  · exact ⟨_, by omega, hb⟩
  · exact ⟨_, by omega, hb⟩

/-- The digits that are written denote the bytes: they are in lower case. -/
theorem denotes_digits (bytes : Bytes) : Denotes (bytes.flatMap digits) bytes := by
  have hlower : ∀ n < 16, (digit n).toLower = digit n := by decide
  induction bytes with
  | nil => rfl
  | cons b bytes ih =>
    have hb : b.toNat < 256 := b.toNat_lt
    have hdigits : (digits b).map Char.toLower = digits b := by
      rw [digits, List.map_cons, List.map_cons, List.map_nil, hlower _ (by omega),
        hlower _ (by omega)]
    rw [Denotes, List.flatMap_cons, List.map_append, hdigits, ih]

/-! ## Pairs of digits -/

/-- One more byte in front, from its two digits. -/
theorem denotes_cons {high low v w : UInt8} {rest : Bytes} (hv : value? high = some v)
    (hw : value? low = some w) (hrest : Denotes (rest.map charOf) bytes) :
    Denotes ((high :: low :: rest).map charOf) ((16 * v + w) :: bytes) := by
  have hlater : (rest.map charOf).map Char.toLower = bytes.flatMap digits := hrest
  rw [Denotes, List.flatMap_cons, digits_of_values (toNat_value?_lt hv) (toNat_value?_lt hw),
    List.map_cons, List.map_cons, List.map_cons, List.map_cons, toLower_of_value? hv,
    toLower_of_value? hw, hlater]
  rfl

/-- Pairs of digits are read as what they denote. -/
theorem decodePairs_of_denotes (h : Denotes (text.map charOf) bytes) (position : Nat) :
    decodePairs position text = .ok bytes := by
  induction bytes generalizing text position with
  | nil =>
    obtain rfl : text = [] := by
      have hlen := h.length
      rw [List.length_map] at hlen
      exact List.eq_nil_of_length_eq_zero hlen
    rfl
  | cons b bytes ih =>
    match text, h with
    | [], h => cases h
    | [_], h =>
      have hlen := h.length
      simp only [List.map_cons, List.map_nil, List.length_cons, List.length_nil] at hlen
      omega
    | high :: low :: rest, h =>
      obtain ⟨hhigh, hrest⟩ := List.cons.inj h
      obtain ⟨hlow, hrest⟩ := List.cons.inj hrest
      have hb : b.toNat < 256 := b.toNat_lt
      rw [decodePairs, (value?_eq_some_ofNat_iff (by omega)).mpr hhigh]
      simp only [(value?_eq_some_ofNat_iff (b := low) (n := b.toNat % 16) (by omega)).mpr hlow]
      rw [ih hrest, sum_of_digits]
      rfl

/-- An even number of bytes that are read as pairs denote what they are read as. -/
theorem denotes_of_decodePairs {position : Nat} (heven : text.length % 2 = 0)
    (h : decodePairs position text = .ok bytes) : Denotes (text.map charOf) bytes := by
  fun_induction decodePairs position text generalizing bytes with
  | case1 => cases h
  | case2 => cases h
  | case3 position high low rest hv hhigh lv hlow ih =>
    cases hrest : decodePairs (position + 2) rest with
    | error fault =>
      rw [hrest] at h
      cases h
    | ok bs =>
      rw [hrest] at h
      obtain rfl := Except.ok.inj h
      have hless : rest.length % 2 = 0 := by
        simp only [List.length_cons] at heven
        omega
      exact denotes_cons hhigh hlow (ih hless hrest)
  | case4 text position hpair =>
    obtain rfl := Except.ok.inj h
    match text, heven, hpair with
    | [], _, _ => rfl
    | high :: low :: rest, _, hpair => exact (hpair _ _ _ rfl).elim

/-- Behind digits the first byte that is none is reported. -/
theorem decodePairs_of_bad {byte : UInt8} (hbad : ¬IsDigit (charOf byte)) :
    ∀ (front back : Bytes) (position : Nat), (∀ b ∈ front, IsDigit (charOf b)) →
      (front ++ byte :: back).length % 2 = 0 →
      decodePairs position (front ++ byte :: back) =
        .error (.badDigit byte (position + front.length))
  | [], [], _, _, heven => by cases heven
  | [], low :: back, position, _, _ => by
    rw [List.nil_append, decodePairs, value?_eq_none_iff.mpr hbad]
    rfl
  | [high], back, position, hfront, _ => by
    obtain ⟨v, hv⟩ := isDigit_iff.mp (hfront high (List.mem_singleton.mpr rfl))
    rw [List.singleton_append, decodePairs, hv]
    simp only [value?_eq_none_iff.mpr hbad]
    rfl
  | high :: low :: front, back, position, hfront, heven => by
    obtain ⟨hhigh, hrest⟩ := List.forall_mem_cons.mp hfront
    obtain ⟨hlow, hrest⟩ := List.forall_mem_cons.mp hrest
    obtain ⟨v, hv⟩ := isDigit_iff.mp hhigh
    obtain ⟨w, hw⟩ := isDigit_iff.mp hlow
    have hless : (front ++ byte :: back).length % 2 = 0 := by
      simp only [List.cons_append, List.length_cons] at heven
      omega
    rw [List.cons_append, List.cons_append, decodePairs, hv]
    simp only [hw]
    rw [decodePairs_of_bad hbad front back (position + 2) hrest hless, List.length_cons,
      List.length_cons, Nat.add_assoc, Nat.add_comm 2]
    rfl

/-! ## Texts -/

/-- **A text is read** as the bytes that it denotes. -/
theorem decode_eq_ok_iff : decode text = .ok bytes ↔ Denotes (text.map charOf) bytes := by
  rw [decode]
  constructor
  · intro h
    split at h
    · cases h
    · exact denotes_of_decodePairs (by omega) h
  · intro h
    have hlen := h.length
    rw [List.length_map] at hlen
    rw [if_neg (by omega)]
    exact decodePairs_of_denotes h 0

/-- An odd number of bytes comes first. -/
theorem decode_of_odd (h : text.length % 2 = 1) : decode text = .error .oddLength := if_pos h

/-- Then the first byte that is no digit. -/
theorem decode_of_bad {front back : Bytes} {byte : UInt8} (htext : text = front ++ byte :: back)
    (heven : text.length % 2 = 0) (hfront : ∀ b ∈ front, IsDigit (charOf b))
    (hbad : ¬IsDigit (charOf byte)) : decode text = .error (.badDigit byte front.length) := by
  subst htext
  rw [decode, if_neg (by omega), decodePairs_of_bad hbad front back 0 hfront heven, Nat.zero_add]

/-- An even number of digits denotes bytes. -/
theorem exists_denotes : ∀ {text : Bytes}, text.length % 2 = 0 →
    (∀ b ∈ text, IsDigit (charOf b)) → ∃ bytes, Denotes (text.map charOf) bytes
  | [], _, _ => ⟨[], rfl⟩
  | [_], heven, _ => by cases heven
  | high :: low :: rest, heven, hdigits => by
    obtain ⟨hhigh, hrest⟩ := List.forall_mem_cons.mp hdigits
    obtain ⟨hlow, hrest⟩ := List.forall_mem_cons.mp hrest
    obtain ⟨v, hv⟩ := isDigit_iff.mp hhigh
    obtain ⟨w, hw⟩ := isDigit_iff.mp hlow
    have hless : rest.length % 2 = 0 := by
      simp only [List.length_cons] at heven
      omega
    obtain ⟨bytes, hbytes⟩ := exists_denotes hless hrest
    exact ⟨_, denotes_cons hv hw hbytes⟩

/-- **Every text** denotes bytes, or has an odd number of bytes, or a first byte that is no
digit. -/
theorem decode_cases (text : Bytes) :
    (∃ bytes, Denotes (text.map charOf) bytes) ∨ text.length % 2 = 1 ∨
      text.length % 2 = 0 ∧ ∃ front byte back, text = front ++ byte :: back ∧
        (∀ b ∈ front, IsDigit (charOf b)) ∧ ¬IsDigit (charOf byte) := by
  by_cases heven : text.length % 2 = 0
  · have hsplit := List.takeWhile_append_dropWhile (p := fun b => (value? b).isSome) (l := text)
    have hfront : ∀ b ∈ text.takeWhile (fun b => (value? b).isSome), IsDigit (charOf b) := by
      intro b hb
      have hvalue := List.mem_takeWhile_imp (p := fun b => (value? b).isSome) hb
      exact isDigit_iff.mpr (Option.isSome_iff_exists.mp hvalue)
    cases hback : text.dropWhile (fun b => (value? b).isSome) with
    | nil =>
      rw [hback, List.append_nil] at hsplit
      rw [hsplit] at hfront
      exact .inl (exists_denotes heven hfront)
    | cons byte back =>
      have hbad := List.head?_dropWhile_not (fun b => (value? b).isSome) text
      rw [hback] at hbad hsplit
      refine .inr (.inr ⟨heven, _, byte, back, hsplit.symm, hfront, ?_⟩)
      rw [← value?_eq_none_iff]
      exact Option.isNone_iff_eq_none.mp (Option.isSome_eq_false_iff.mp hbad)
  · exact .inr (.inl (by omega))

/-! ## Characters -/

/-- Only an ASCII character is one in the other case. -/
theorem toNat_lt_of_toLower {c : Char} (h : c.toLower.toNat < 0x80) : c.toNat < 0x80 := by
  by_contra hge
  -- beyond ASCII there is only one case
  have hlower : c.toLower = c := by
    refine dif_neg ?_
    rintro ⟨-, hle⟩
    have hz : c.toNat ≤ 90 := UInt32.le_iff_toNat_le.mp hle
    omega
  rw [hlower] at h
  exact hge h

/-- A digit is ASCII. -/
theorem IsDigit.toNat_lt {c : Char} (h : IsDigit c) : c.toNat < 0x80 := by
  obtain ⟨n, hn, hdigit⟩ := h
  exact toNat_lt_of_toLower (hdigit ▸ digit_lt n hn)

/-- A byte is taken for the ASCII character that it is. -/
theorem charOf_ofNat {c : Char} (h : c.toNat < 0x80) : charOf (UInt8.ofNat c.toNat) = c := by
  have hbyte : (UInt8.ofNat c.toNat).toUInt32 = c.val := by
    apply UInt32.toNat.inj
    rw [UInt8.toNat_toUInt32, UInt8.toNat_ofNat', Nat.mod_eq_of_lt (by omega)]
    rfl
  exact Char.ext hbyte

/-- The bytes of ASCII characters are taken for these. -/
theorem map_charOf_utf8 {cs : List Char} (h : Text.Ascii cs) :
    (Text.utf8 (String.ofList cs)).map charOf = cs := by
  rw [h.utf8_ofList, List.map_map]
  exact (List.map_congr_left fun c hmem => charOf_ofNat (h c hmem)).trans (List.map_id cs)

/-- **The bytes of a text denote** what its characters do. -/
theorem denotes_utf8_iff {cs : List Char} :
    Denotes ((Text.utf8 (String.ofList cs)).map charOf) bytes ↔ Denotes cs bytes := by
  constructor
  · intro h
    have hascii : Text.Ascii cs := by
      refine Text.ascii_of_utf8 fun b hb => ?_
      have hdigit := h.isDigit _ (List.mem_map_of_mem hb)
      have hsame : (charOf b).toNat = b.toNat := UInt8.toNat_toUInt32 b
      rw [← hsame]
      exact hdigit.toNat_lt
    rwa [map_charOf_utf8 hascii] at h
  · intro h
    have hascii : Text.Ascii cs := fun c hmem => (h.isDigit c hmem).toNat_lt
    rwa [map_charOf_utf8 hascii]

/-- **Characters denote bytes** if and only if they are digits and their number is even. -/
theorem exists_denotes_iff {cs : List Char} :
    (∃ bytes, Denotes cs bytes) ↔ cs.length % 2 = 0 ∧ ∀ c ∈ cs, IsDigit c := by
  constructor
  · rintro ⟨bytes, h⟩
    have hlen := h.length
    exact ⟨by omega, h.isDigit⟩
  · rintro ⟨heven, hdigits⟩
    have hascii : Text.Ascii cs := fun c hmem => (hdigits c hmem).toNat_lt
    have hchars := map_charOf_utf8 hascii
    have hbytes : ∀ b ∈ Text.utf8 (String.ofList cs), IsDigit (charOf b) := by
      intro b hb
      refine hdigits _ ?_
      rw [← hchars]
      exact List.mem_map_of_mem hb
    obtain ⟨bytes, h⟩ := exists_denotes (by rwa [hascii.length_utf8]) hbytes
    rw [hchars] at h
    exact ⟨bytes, h⟩

end AeadStream.Hex
