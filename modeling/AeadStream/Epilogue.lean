import AeadStream.Cbor.Content
import AeadStream.Hex
import AeadStream.Sha256

/-!
# The epilogue

The final chunk of an encrypted file sums up the plaintext: its digest and its length. It is
written as a CBOR map of two fields with the shortest heads, and read in any form that CBOR
allows for it, with fields in either order and others between them.
-/

namespace AeadStream

/-- **The epilogue** of a stream. -/
structure Epilogue where
  /-- the digest of the plaintext, in hexadecimal digits -/
  sha256 : String
  /-- the number of bytes of the plaintext -/
  size : UInt64
deriving DecidableEq

namespace Epilogue

open Cbor

/-- The epilogue of a plaintext. -/
def ofPlaintext (plaintext : Bytes) : Epilogue where
  sha256 := Hex.encode (Sha256.digest plaintext).bytes
  size := UInt64.ofNat plaintext.length

/-! ## Writing -/

/-- A text item. -/
def encodeText (s : String) : Bytes :=
  let bytes := Text.utf8 s
  Head.write 3 bytes.length ++ bytes

/-- **Written:** a map of the digest and the size, in this order. -/
def encode (e : Epilogue) : Bytes :=
  Head.write 5 2 ++ encodeText "sha256" ++ encodeText e.sha256 ++
    encodeText "size" ++ Head.write 0 e.size.toNat

/-! ## Reading integers -/

/-- What was read of an integer that is given by its bytes: how many bytes count and their
value. -/
structure Digits where
  count : Nat := 0
  value : Nat := 0

/-- One more byte. Leading zeros do not count, and sixteen bytes are the most. -/
def Digits.push (s : Digits) (b : UInt8) : Except Fault Digits :=
  if s.count = 16 then .error .bytesTooMany
  else if s.count = 0 ∧ b = 0 then .ok s
  else .ok { count := s.count + 1, value := 256 * s.value + b.toNat }

/-- A piece of an integer. Its bytes are taken sixteen at a time, so a piece with too many bytes
is refused even where it also ends too early. -/
def digitsPiece (length : Nat) (s : Digits) (c : Cursor) : Except Fault (Digits × Cursor) :=
  if length = 0 then .ok (s, c)
  else
    match c.take (min 16 length) with
    | .error fault => .error fault
    | .ok (bytes, d) =>
      match bytes.foldlM Digits.push s with
      | .error fault => .error fault
      | .ok s => digitsPiece (length - 16) s d
termination_by length

theorem digitsPiece_le {length : Nat} {s t : Digits} {c d : Cursor}
    (h : digitsPiece length s c = .ok (t, d)) : d.rest.length ≤ c.rest.length := by
  fun_induction digitsPiece length s c with
  | case1 => obtain ⟨-, rfl⟩ := Prod.mk.inj (Except.ok.inj h); exact Nat.le_refl _
  | case2 => exact absurd h nofun
  | case3 => exact absurd h nofun
  | case4 length s c hl bytes d' ht s' hs ih =>
    refine Nat.le_trans (ih h) ?_
    simp [(Cursor.take_ok ht).1]

/-- **Reading integers** given by their bytes. -/
def digitsReader : PieceReader Digits where
  length?
    | .bytes length => some length
    | _ => none
  piece _ length s c := digitsPiece length s c
  piece_le h := digitsPiece_le h

/-- Reads an integer that must not be negative and must be below `2 ^ 64`. Tags are passed over,
except for the two that announce an integer given by its bytes. -/
def readSize (c : Cursor) : Except Fault (UInt64 × Cursor) :=
  match _h : Head.read c with
  | .error fault => .error fault
  | .ok (.unsigned n, d) => .ok (UInt64.ofNat n, d)
  | .ok (.negative _, _) => .error .negativeInteger
  | .ok (.tag number, d) =>
    if number = 2 ∨ number = 3 then
      match Head.read d with
      | .error fault => .error fault
      | .ok (.bytes length, e) =>
        match digitsReader.content length {} e with
        | .error fault => .error fault
        | .ok (digits, e) =>
          if number = 3 then .error .negativeInteger
          else if UInt64.size ≤ digits.value then .error .integerTooLarge
          else .ok (UInt64.ofNat digits.value, e)
      | .ok (head, _) => .error (.wrongKind head "bytes")
    else readSize d
  | .ok (head, _) => .error (.wrongKind head "integer")
termination_by c.rest.length
decreasing_by exact Head.read_ok _h

/-! ## Reading texts -/

/-- Reads a text in pieces. Tags are passed over. -/
def readText (c : Cursor) : Except Fault (String × Cursor) :=
  match _h : Head.read c with
  | .error fault => .error fault
  | .ok (.tag _, d) => readText d
  | .ok (.text length, d) => textReader.content length "" d
  | .ok (head, _) => .error (.wrongKind head "string")
termination_by c.rest.length
decreasing_by exact Head.read_ok _h

/-- The longest name of a field. -/
def maxNameLength : Nat := 4096

/-- Reads the name of a field: a text or a byte string of known length. Tags are passed over. A
head that was looked at before is located as if it were as short as possible. -/
def readName (lookedAt : Bool) (c : Cursor) : Except Fault (Bytes × Cursor) :=
  match _h : Head.read c with
  | .error fault => .error fault
  | .ok (.tag _, d) => readName false d
  | .ok (.text (some length), d) =>
    if maxNameLength < length then .error (.wrongKind (.text (some length)) "str or bytes")
    else
      match d.take length with
      | .error fault => .error fault
      | .ok (name, e) =>
        if (Text.ofUtf8? name).isSome then .ok (name, e)
        else
          .error (.malformed
            (if lookedAt then d.offset - Head.shortestSize length else c.offset))
  | .ok (.bytes (some length), d) =>
    if maxNameLength < length then .error (.wrongKind (.bytes (some length)) "str or bytes")
    else d.take length
  | .ok (head, _) => .error (.wrongKind head "str or bytes")
termination_by c.rest.length
decreasing_by exact Head.read_ok _h

/-! ### Nothing is read backwards -/

theorem readSize_le {c d : Cursor} {n : UInt64} (h : readSize c = .ok (n, d)) :
    d.rest.length ≤ c.rest.length := by
  fun_induction readSize c with
  | case2 c m e hr =>
    obtain ⟨-, rfl⟩ := Prod.mk.inj (Except.ok.inj h)
    exact Nat.le_of_lt (Head.read_ok hr)
  | case8 c number e hr hn length e1 hr1 digits e2 hd =>
    obtain ⟨-, rfl⟩ := Prod.mk.inj (Except.ok.inj h)
    have h1 := digitsReader.content_le hd
    have h2 := Head.read_ok hr1
    have h3 := Head.read_ok hr
    omega
  | case10 c number e hr hn ih => exact Nat.le_trans (ih h) (Nat.le_of_lt (Head.read_ok hr))
  | case1 | case3 | case4 | case5 | case6 | case7 | case9 | case11 => exact absurd h nofun

theorem readText_le {c d : Cursor} {s : String} (h : readText c = .ok (s, d)) :
    d.rest.length ≤ c.rest.length := by
  fun_induction readText c with
  | case2 c number e hr ih => exact Nat.le_trans (ih h) (Nat.le_of_lt (Head.read_ok hr))
  | case3 c length e hr =>
    exact Nat.le_trans (textReader.content_le h) (Nat.le_of_lt (Head.read_ok hr))
  | case1 | case4 => exact absurd h nofun

theorem readName_lt {lookedAt : Bool} {c d : Cursor} {name : Bytes}
    (h : readName lookedAt c = .ok (name, d)) : d.rest.length < c.rest.length := by
  fun_induction readName lookedAt c with
  | case2 lookedAt c number e hr ih => exact Nat.lt_trans (ih h) (Head.read_ok hr)
  | case5 lookedAt c length e hr hl name' e' ht hu =>
    obtain ⟨-, rfl⟩ := Prod.mk.inj (Except.ok.inj h)
    have h1 := Head.read_ok hr
    rw [(Cursor.take_ok ht).1, List.length_append] at h1
    omega
  | case8 lookedAt c length e hr hl =>
    have h1 := Head.read_ok hr
    rw [(Cursor.take_ok h).1, List.length_append] at h1
    omega
  | case1 | case3 | case4 | case6 | case7 | case9 => exact absurd h nofun

/-! ## Reading -/

/-- The fields that were read so far. -/
structure Fields where
  sha256 : Option String := none
  size : Option UInt64 := none

/-- All fields together. Of two missing ones the digest is named. -/
def Fields.finish (f : Fields) : Except Fault Epilogue :=
  match f.sha256, f.size with
  | none, _ => .error (.missingField "sha256")
  | _, none => .error (.missingField "size")
  | some sha256, some size => .ok { sha256, size }

/-- Reads the value of the named field, which must not have occurred before. The value of any
other field is passed over. -/
def Fields.readValue (f : Fields) (name : Bytes) (c : Cursor) : Except Fault (Fields × Cursor) :=
  if name = Text.utf8 "sha256" then
    if f.sha256.isSome then .error (.duplicateField "sha256")
    else
      match readText c with
      | .error fault => .error fault
      | .ok (sha256, d) => .ok ({ f with sha256 := some sha256 }, d)
  else if name = Text.utf8 "size" then
    if f.size.isSome then .error (.duplicateField "size")
    else
      match readSize c with
      | .error fault => .error fault
      | .ok (size, d) => .ok ({ f with size := some size }, d)
  else
    match passItem c with
    | .error fault => .error fault
    | .ok d => .ok (f, d)

theorem Fields.readValue_le {f g : Fields} {name : Bytes} {c d : Cursor}
    (h : f.readValue name c = .ok (g, d)) : d.rest.length ≤ c.rest.length := by
  unfold readValue at h
  split at h
  · split at h
    · exact absurd h nofun
    · split at h
      · exact absurd h nofun
      · rename_i hr
        obtain ⟨-, rfl⟩ := Prod.mk.inj (Except.ok.inj h)
        exact readText_le hr
  · split at h
    · split at h
      · exact absurd h nofun
      · split at h
        · exact absurd h nofun
        · rename_i hr
          obtain ⟨-, rfl⟩ := Prod.mk.inj (Except.ok.inj h)
          exact readSize_le hr
    · split at h
      · exact absurd h nofun
      · rename_i hr
        obtain ⟨-, rfl⟩ := Prod.mk.inj (Except.ok.inj h)
        exact passItem_le hr

/-- No field is left: of a known number none, or a break stands where the next would begin. -/
def isAtEnd (left : Option Nat) (c : Cursor) : Except Fault Bool :=
  match left with
  | some n => .ok (n = 0)
  | none => (Head.read c).map fun read => read.1 = .break

/-- Reads the fields of a map: as many as its head says, or up to a break. -/
def readFields (left : Option Nat) (f : Fields) (c : Cursor) : Except Fault Epilogue :=
  match isAtEnd left c with
  | .error fault => .error fault
  | .ok true => f.finish
  | .ok false =>
    match _hn : readName left.isNone c with
    | .error fault => .error fault
    | .ok (name, d) =>
      match _hv : f.readValue name d with
      | .error fault => .error fault
      | .ok (f, e) => readFields (left.map (· - 1)) f e
termination_by c.rest.length
decreasing_by
  exact Nat.lt_of_le_of_lt (Fields.readValue_le _hv) (readName_lt _hn)

/-- Reads the map. Tags are passed over. -/
def readMap (c : Cursor) : Except Fault Epilogue :=
  match _h : Head.read c with
  | .error fault => .error fault
  | .ok (.tag _, d) => readMap d
  | .ok (.map length, d) => readFields length {} d
  | .ok (head, _) => .error (.wrongKind head "map")
termination_by c.rest.length
decreasing_by exact Head.read_ok _h

/-- **Read.** Bytes behind the map are ignored. -/
def decode (bytes : Bytes) : Except Fault Epilogue := readMap { rest := bytes }

end Epilogue

end AeadStream
