import AeadStream.Bytes

/-!
# Text as bytes

Text goes to and from bytes in UTF-8. Not all bytes are text. Bytes that were cut off from a
longer text may end inside a character.
-/

namespace AeadStream.Text

/-- The bytes of a text. -/
def utf8 (s : String) : Bytes := s.toUTF8.data.toList

/-- The text that the bytes are, if they are well-formed. -/
def ofUtf8? (bytes : Bytes) : Option String := String.fromUTF8? ⟨bytes.toArray⟩

/-- The longest text at the front of the bytes, if at most three bytes are behind it; their number
is given. A character that was cut off is no longer than that. -/
def frontOfUtf8? (bytes : Bytes) : Option (String × Nat) :=
  [0, 1, 2, 3].findSome? fun behind =>
    (ofUtf8? (bytes.take (bytes.length - behind))).map fun front => (front, behind)

theorem frontOfUtf8?_le {bytes : Bytes} {front : String} {behind : Nat}
    (h : frontOfUtf8? bytes = some (front, behind)) : behind ≤ 3 := by
  obtain ⟨n, hn, hfront⟩ := List.exists_of_findSome?_eq_some h
  obtain ⟨_, -, heq⟩ := Option.map_eq_some_iff.1 hfront
  obtain ⟨-, rfl⟩ := Prod.mk.inj heq
  simp only [List.mem_cons, List.not_mem_nil, or_false] at hn
  omega

end AeadStream.Text
