import AeadStream.KeyFile
import AeadStream.Proofs.Hex
import AeadStream.Proofs.Sink

/-!
# A key file is read by its grammar

A key file is white space, sixty-four digits in either case, and white space again. Everything else
is refused, for the first of these reasons that applies: it is no text, an odd number of bytes is
between the white space, one of these bytes is no digit, or the digits denote too few bytes or too
many. So a key that was written is read back, in whatever case and with whatever white space around.

* `Text.Core`, `Text.core_trim`, `Text.Core.trim_eq` — what is between the white space;
* `parse_eq_iff` — the grammar, with all refusals;
* `key_file_is_its_grammar` — reading by the grammar, and reading back.
-/

namespace AeadStream

/-! ## White space around a text -/

namespace Text

/-- **The core** of a text stands between white space and does not begin or end with any. -/
structure Core (cs core : List Char) : Prop where
  between : ∃ front back, cs = front ++ core ++ back ∧ (∀ c ∈ front, isBlank c) ∧
    ∀ c ∈ back, isBlank c
  begins : ∀ c ∈ core.head?, ¬isBlank c
  ends : ∀ c ∈ core.getLast?, ¬isBlank c

variable {cs core front : List Char}

/-- White space in front is dropped, and no more. -/
theorem dropWhile_isBlank (hfront : ∀ c ∈ front, isBlank c)
    (hcore : ∀ c ∈ core.head?, ¬isBlank c) : (front ++ core).dropWhile isBlank = core := by
  rw [List.dropWhile_append_of_pos hfront]
  cases core with
  | nil => rfl
  | cons c cs => exact List.dropWhile_cons_of_neg (hcore c rfl)

/-- What is left without the white space at both ends is a core. -/
theorem core_trim (cs : List Char) : Core cs (trim cs) := by
  have hfront := List.takeWhile_append_dropWhile (p := isBlank) (l := cs)
  have hback := List.takeWhile_append_dropWhile (p := isBlank)
    (l := (cs.dropWhile isBlank).reverse)
  -- what is behind the first white space is the core and the last white space
  have hsplit : cs.dropWhile isBlank =
      trim cs ++ ((cs.dropWhile isBlank).reverse.takeWhile isBlank).reverse := by
    rw [trim, ← List.reverse_append, hback, List.reverse_reverse]
  refine ⟨⟨cs.takeWhile isBlank, ((cs.dropWhile isBlank).reverse.takeWhile isBlank).reverse, ?_,
    ?_, ?_⟩, ?_, ?_⟩
  · rw [List.append_assoc, ← hsplit, hfront]
  · exact fun c hc => List.mem_takeWhile_imp hc
  · exact fun c hc => List.mem_takeWhile_imp (List.mem_reverse.mp hc)
  · intro c hc hblank
    have hhead := List.head?_dropWhile_not isBlank cs
    rw [hsplit, List.head?_append, Option.mem_def.mp hc] at hhead
    have hnot : isBlank c = false := hhead
    rw [hblank] at hnot
    cases hnot
  · intro c hc hblank
    have hlast := List.head?_dropWhile_not isBlank (cs.dropWhile isBlank).reverse
    rw [trim, List.getLast?_reverse] at hc
    rw [Option.mem_def.mp hc] at hlast
    have hnot : isBlank c = false := hlast
    rw [hblank] at hnot
    cases hnot

/-- A text has one core only. -/
theorem Core.trim_eq (h : Core cs core) : trim cs = core := by
  obtain ⟨⟨front, back, rfl, hfront, hback⟩, hbegins, hends⟩ := h
  cases core with
  | nil =>
    have hall : ∀ c ∈ front ++ back, isBlank c := fun c hc =>
      (List.mem_append.mp hc).elim (hfront c) (hback c)
    have hnil : (front ++ back ++ []).dropWhile isBlank = [] := dropWhile_isBlank hall nofun
    rw [List.append_nil] at hnil
    rw [List.append_nil, trim, hnil]
    rfl
  | cons c core =>
    have hfirst : (front ++ (c :: core ++ back)).dropWhile isBlank = c :: core ++ back :=
      dropWhile_isBlank hfront hbegins
    have hreverse : ∀ d ∈ back.reverse, isBlank d := fun d hd => hback d (List.mem_reverse.mp hd)
    have hlast : ∀ d ∈ (c :: core).reverse.head?, ¬isBlank d := by
      rw [List.head?_reverse]
      exact hends
    rw [List.append_assoc, trim, hfirst, List.reverse_append, dropWhile_isBlank hreverse hlast,
      List.reverse_reverse]

end Text

/-- No digit is white space. -/
theorem Hex.IsDigit.not_isBlank {c : Char} (h : IsDigit c) : ¬Text.isBlank c := by
  have hall : ∀ c : Char, c.toNat < 0x80 → Text.isBlank c → ∀ n < 16, c.toLower ≠ digit n :=
    Text.forall_ascii (by decide +kernel)
  obtain ⟨n, hn, hdigit⟩ := id h
  exact fun hblank => hall c h.toNat_lt hblank n hn hdigit

namespace KeyFile

variable {file : Bytes} {core : List Char} {bytes : Bytes} {key : SessionKey}

/-! ## The grammar -/

/-- **A file holds** these characters between white space. -/
def Holds (file : Bytes) (core : List Char) : Prop :=
  ∃ text : String, file = Text.utf8 text ∧ Text.Core text.toList core

/-- **What a key file is read as.** -/
inductive Parsed (file : Bytes) : Except CommandFault SessionKey → Prop
  /-- the digits of a key -/
  | key {core : List Char} {key : SessionKey} (hcore : Holds file core)
      (hdigits : Hex.Denotes core key.bytes) : Parsed file (.ok key)
  /-- digits of fewer bytes or of more -/
  | keyLength {core : List Char} {bytes : Bytes} (hcore : Holds file core)
      (hdigits : Hex.Denotes core bytes) (hne : bytes.length ≠ 32) :
      Parsed file (.error (.stream (.keyLength 32 bytes.length)))
  /-- no text at all -/
  | notText (h : ∀ text, file ≠ Text.utf8 text) :
      Parsed file (.error (.keyFile "not valid UTF-8"))
  /-- an odd number of bytes, whatever they are -/
  | oddLength {core : List Char} (hcore : Holds file core)
      (hodd : (Text.utf8 (String.ofList core)).length % 2 = 1) :
      Parsed file (.error (.keyFile "Odd number of digits"))
  /-- an even number of bytes, and this is the first of them that is no digit -/
  | badDigit {core : List Char} {front back : Bytes} {byte : UInt8} (hcore : Holds file core)
      (heven : (Text.utf8 (String.ofList core)).length % 2 = 0)
      (hbytes : Text.utf8 (String.ofList core) = front ++ byte :: back)
      (hfront : ∀ b ∈ front, Hex.IsDigit (Hex.charOf b)) (hbad : ¬Hex.IsDigit (Hex.charOf byte)) :
      Parsed file (.error (.keyFile (Hex.Fault.badDigit byte front.length).message))

/-! ## Reading by the grammar -/

/-- A text is read by what is between its white space. -/
theorem parse_of_holds (h : Holds file core) :
    parse file =
      match Hex.decode (Text.utf8 (String.ofList core)) with
      | .error fault => .error (.keyFile fault.message)
      | .ok bytes => (SessionKey.ofBytes bytes).mapError ofCipher := by
  obtain ⟨text, rfl, hcore⟩ := h
  cases hdecode : Hex.decode (Text.utf8 (String.ofList core)) with
  | error fault => simp only [parse, Text.ofUtf8?_utf8, hcore.trim_eq, hdecode]
  | ok bytes => simp only [parse, Text.ofUtf8?_utf8, hcore.trim_eq, hdecode]

/-- Digits are read as the bytes that they denote, if these are a key. -/
theorem parse_of_denotes (h : Holds file core) (hdigits : Hex.Denotes core bytes) :
    parse file = (SessionKey.ofBytes bytes).mapError ofCipher := by
  rw [parse_of_holds h, Hex.decode_eq_ok_iff.mpr (Hex.denotes_utf8_iff.mpr hdigits)]

/-- Bytes are a key if there are thirty-two of them. -/
theorem ofBytes_of_ne (h : bytes.length ≠ 32) :
    SessionKey.ofBytes bytes = .error (.keyLength 32 bytes.length) := by
  rw [SessionKey.ofBytes, Octets.ofBytes?, dif_neg h]

/-- What the grammar says is what is read. -/
theorem Parsed.parse_eq {result : Except CommandFault SessionKey} (h : Parsed file result) :
    parse file = result := by
  cases h with
  | key hcore hdigits =>
    rw [parse_of_denotes hcore hdigits, SessionKey.ofBytes, Octets.ofBytes?_bytes]
    rfl
  | keyLength hcore hdigits hne =>
    rw [parse_of_denotes hcore hdigits, ofBytes_of_ne hne]
    rfl
  | notText hnot =>
    rw [parse]
    split
    · rfl
    · next htext => exact absurd (Text.utf8_of_ofUtf8? htext) (hnot _)
  | oddLength hcore hodd =>
    rw [parse_of_holds hcore, Hex.decode_of_odd hodd]
    rfl
  | badDigit hcore heven hbytes hfront hbad =>
    rw [parse_of_holds hcore, Hex.decode_of_bad hbytes heven hfront hbad]

/-- The grammar says something of every file. -/
theorem exists_parsed (file : Bytes) : ∃ result, Parsed file result := by
  by_cases htext : ∃ text, file = Text.utf8 text
  · obtain ⟨text, rfl⟩ := htext
    have hcore : Holds (Text.utf8 text) (Text.trim text.toList) :=
      ⟨text, rfl, Text.core_trim text.toList⟩
    rcases Hex.decode_cases (Text.utf8 (String.ofList (Text.trim text.toList))) with
      ⟨bytes, hdigits⟩ | hodd | ⟨heven, front, byte, back, hbytes, hfront, hbad⟩
    · rw [Hex.denotes_utf8_iff] at hdigits
      by_cases hlen : bytes.length = 32
      · exact ⟨.ok ⟨bytes, hlen⟩, .key hcore hdigits⟩
      · exact ⟨_, .keyLength hcore hdigits hlen⟩
    · exact ⟨_, .oddLength hcore hodd⟩
    · exact ⟨_, .badDigit hcore heven hbytes hfront hbad⟩
  · exact ⟨_, .notText fun text h => htext ⟨text, h⟩⟩

/-- **A file is read as the grammar says.** -/
theorem parse_eq_iff {result : Except CommandFault SessionKey} :
    parse file = result ↔ Parsed file result := by
  constructor
  · rintro rfl
    obtain ⟨result, h⟩ := exists_parsed file
    rwa [h.parse_eq]
  · exact Parsed.parse_eq

/-- **A file is read by the grammar.** -/
structure ByGrammar (file : Bytes) : Prop where
  /-- the result is the one that the grammar gives -/
  result_iff : ∀ result, parse file = result ↔ Parsed file result
  /-- there is a key if and only if there are sixty-four digits between white space, -/
  accepted_iff : (∃ key, parse file = .ok key) ↔
    ∃ core, Holds file core ∧ core.length = 64 ∧ ∀ c ∈ core, Hex.IsDigit c
  /-- and it is the one that they denote -/
  key_iff : ∀ key : SessionKey,
    parse file = .ok key ↔ ∃ core, Holds file core ∧ Hex.Denotes core key.bytes
  /-- the length is at fault if and only if there is another even number of digits -/
  keyLength_iff : ∀ n, parse file = .error (.stream (.keyLength 32 n)) ↔
    n ≠ 32 ∧ ∃ core, Holds file core ∧ core.length = 2 * n ∧ ∀ c ∈ core, Hex.IsDigit c
  /-- and in all other cases the file is -/
  keyFile_iff : (∃ reason, parse file = .error (.keyFile reason)) ↔
    ¬∃ core, Holds file core ∧ core.length % 2 = 0 ∧ ∀ c ∈ core, Hex.IsDigit c

/-- So many pairs of digits denote so many bytes. -/
theorem exists_denotes_of_length {n : Nat} (hlen : core.length = 2 * n)
    (hdigits : ∀ c ∈ core, Hex.IsDigit c) :
    ∃ bytes : Bytes, Hex.Denotes core bytes ∧ bytes.length = n := by
  obtain ⟨bytes, h⟩ := Hex.exists_denotes_iff.mpr ⟨by omega, hdigits⟩
  have hdouble := h.length
  exact ⟨bytes, h, by omega⟩

/-- Every file is read by the grammar. -/
theorem byGrammar (file : Bytes) : ByGrammar file where
  result_iff _ := parse_eq_iff
  accepted_iff := by
    constructor
    · rintro ⟨key, hkey⟩
      cases parse_eq_iff.mp hkey with
      | key hcore hdigits =>
        have hlen := hdigits.length
        rw [Octets.length_bytes] at hlen
        exact ⟨_, hcore, hlen, hdigits.isDigit⟩
    · rintro ⟨core, hcore, hlen, hall⟩
      obtain ⟨bytes, hdigits, hbytes⟩ := exists_denotes_of_length (n := 32) hlen hall
      exact ⟨⟨bytes, hbytes⟩, parse_eq_iff.mpr (.key hcore hdigits)⟩
  key_iff key := by
    constructor
    · intro hkey
      cases parse_eq_iff.mp hkey with
      | key hcore hdigits => exact ⟨_, hcore, hdigits⟩
    · rintro ⟨core, hcore, hdigits⟩
      exact parse_eq_iff.mpr (.key hcore hdigits)
  keyLength_iff n := by
    constructor
    · intro hlength
      cases parse_eq_iff.mp hlength with
      | keyLength hcore hdigits hne => exact ⟨hne, _, hcore, hdigits.length, hdigits.isDigit⟩
    · rintro ⟨hne, core, hcore, hlen, hall⟩
      obtain ⟨bytes, hdigits, rfl⟩ := exists_denotes_of_length hlen hall
      exact parse_eq_iff.mpr (.keyLength hcore hdigits hne)
  keyFile_iff := by
    constructor
    · rintro ⟨reason, h⟩ ⟨core, hcore, hdenotes⟩
      obtain ⟨bytes, hdigits⟩ := Hex.exists_denotes_iff.mpr hdenotes
      rw [parse_of_denotes hcore hdigits, SessionKey.ofBytes] at h
      split at h
      · cases h
      · cases h
    · intro hnone
      have hnot : ∀ {core : List Char} {bytes : Bytes}, Holds file core →
          ¬Hex.Denotes core bytes := fun hcore hdigits =>
        hnone ⟨_, hcore, Hex.exists_denotes_iff.mp ⟨_, hdigits⟩⟩
      obtain ⟨result, h⟩ := exists_parsed file
      rw [h.parse_eq]
      cases h with
      | key hcore hdigits => exact absurd hdigits (hnot hcore)
      | keyLength hcore hdigits => exact absurd hdigits (hnot hcore)
      | notText => exact ⟨_, rfl⟩
      | oddLength => exact ⟨_, rfl⟩
      | badDigit => exact ⟨_, rfl⟩

/-! ## Reading back -/

/-- Digits of a key in either case, between any white space, are read as the key. -/
theorem parse_of_surrounded {front back : List Char} (hfront : ∀ c ∈ front, Text.isBlank c)
    (hback : ∀ c ∈ back, Text.isBlank c) (hdigits : Hex.Denotes core key.bytes) :
    parse (Text.utf8 (String.ofList (front ++ core ++ back))) = .ok key := by
  have hcore : Text.Core (front ++ core ++ back) core :=
    ⟨⟨front, back, rfl, hfront, hback⟩,
      fun c hc => (hdigits.isDigit c (List.mem_of_mem_head? hc)).not_isBlank,
      fun c hc => (hdigits.isDigit c (List.mem_of_mem_getLast? hc)).not_isBlank⟩
  have hholds : Holds (Text.utf8 (String.ofList (front ++ core ++ back))) core :=
    ⟨_, rfl, by rwa [String.toList_ofList]⟩
  exact (Parsed.key hholds hdigits).parse_eq

/-- The characters of the file with a key: its digits and a line end. -/
theorem contents_eq (key : SessionKey) :
    contents key = Text.utf8 (String.ofList (key.bytes.flatMap Hex.digits ++ ['\n'])) := by
  rw [contents, Hex.encode, String.ofList_append]

/-- **A new key comes back** from the file that it was written to. -/
structure ComesBack {ρ : Type} [Entropy ρ] (random : ρ) : Prop where
  /-- a key that was drawn is written to every healthy sink -/
  written : ∀ key, (Entropy.draw random 32).1 = .ok key → ∀ sink : Sink, sink.Healthy →
    (writeNew random sink).1 = .ok ()
  /-- whatever was written in full is read as the key that was drawn, also with any white space
  around it and with any letters changed in case -/
  read_back : ∀ sink sink' : Sink, writeNew random sink = (.ok (), sink') →
    ∃ (key : SessionKey) (cs : List Char), (Entropy.draw random 32).1 = .ok key ∧
      sink'.contents = sink.contents ++ Text.utf8 (String.ofList cs) ∧
      parse (Text.utf8 (String.ofList cs)) = .ok key ∧
      ∀ front changed back : List Char, (∀ c ∈ front, Text.isBlank c) →
        (∀ c ∈ back, Text.isBlank c) → changed.map Char.toLower = cs.map Char.toLower →
        parse (Text.utf8 (String.ofList (front ++ changed ++ back))) = .ok key

/-- The file with a key is read, also with more white space and with letters in the other case. -/
theorem parse_of_changed (key : SessionKey) {front changed back : List Char}
    (hfront : ∀ c ∈ front, Text.isBlank c) (hback : ∀ c ∈ back, Text.isBlank c)
    (hsame : changed.map Char.toLower =
      (key.bytes.flatMap Hex.digits ++ ['\n']).map Char.toLower) :
    parse (Text.utf8 (String.ofList (front ++ changed ++ back))) = .ok key := by
  -- the line end has no other case, so it is behind what became of the digits
  rw [List.map_append, Hex.denotes_digits] at hsame
  obtain ⟨digits, last, rfl, hdigits, hlast⟩ := List.map_eq_append_iff.mp hsame
  obtain ⟨c, rfl, hc⟩ := List.map_eq_singleton_iff.mp hlast
  have hblank : Text.isBlank c := by
    have hall : ∀ c : Char, c.toNat < 0x80 → c.toLower = '\n' → Text.isBlank c :=
      Text.forall_ascii (by decide +kernel)
    exact hall c (Hex.toNat_lt_of_toLower (hc ▸ by decide)) hc
  have hbehind : ∀ d ∈ c :: back, Text.isBlank d := List.forall_mem_cons.mpr ⟨hblank, hback⟩
  have hparse := parse_of_surrounded hfront hbehind hdigits
  rw [List.append_assoc] at hparse
  rw [List.append_assoc, List.append_assoc]
  exact hparse

/-- Every new key comes back. -/
theorem comesBack {ρ : Type} [Entropy ρ] (random : ρ) : ComesBack random where
  written key hdraw sink hsink := by
    obtain ⟨sink', hwrite, -⟩ := hsink.writeAll (contents key)
    rcases hrandom : Entropy.draw random 32 with ⟨drawn, random'⟩
    rw [hrandom] at hdraw
    obtain rfl : drawn = .ok key := hdraw
    rw [writeNew, SessionKey.generate, hrandom]
    simp only [Except.mapError, hwrite]
  read_back sink sink' h := by
    rcases hrandom : Entropy.draw random 32 with ⟨drawn, random'⟩
    rw [writeNew, SessionKey.generate, hrandom] at h
    cases drawn with
    | error reason => cases h
    | ok key =>
      rcases hwrite : sink.writeAll (contents key) with ⟨result, sink''⟩
      simp only [Except.mapError, hwrite] at h
      cases result with
      | error fault => cases h
      | ok =>
        obtain ⟨-, rfl⟩ := Prod.mk.inj h
        refine ⟨key, key.bytes.flatMap Hex.digits ++ ['\n'], rfl, ?_, ?_, ?_⟩
        · rw [← contents_eq]
          exact Sink.contents_of_writeAll hwrite
        · have hblank : ∀ c ∈ ([] : List Char), Text.isBlank c := nofun
          have hparse := parse_of_changed key hblank hblank rfl
          rwa [List.nil_append, List.append_nil] at hparse
        · exact fun front changed back => parse_of_changed key

/-! ## Both directions -/

/-- **A key file is its grammar.** Any bytes are read as a key if and only if they are a text of
sixty-four digits between white space; every other file is refused for the first reason that
applies. And a key that is drawn and written is read back. -/
theorem key_file_is_its_grammar {ρ : Type} [Entropy ρ] (file : Bytes) (random : ρ) :
    ByGrammar file ∧ ComesBack random :=
  ⟨byGrammar file, comesBack random⟩

/-- A key of zeros is drawn, and the file with it is read by the grammar. -/
theorem key_file_is_its_grammar_of_zeros :
    (Entropy.draw (Tape.mk (List.replicate 32 0)) 32).1 = .ok (Octets.zero 32) ∧
      ByGrammar (contents (.zero 32)) ∧ ComesBack (Tape.mk (List.replicate 32 0)) :=
  ⟨by decide, key_file_is_its_grammar _ _⟩

end KeyFile

end AeadStream
