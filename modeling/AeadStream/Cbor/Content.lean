import AeadStream.Cbor.Head

/-!
# Content of CBOR items

Texts and byte strings are read piece by piece: one piece if their length is known, otherwise the
pieces up to a break, which may themselves go on until a break. A long text is checked while it
is read. Items that nobody asked for are read and forgotten, down to a fixed depth.

A head that was looked at before it is read is located as if it were written in its shortest
form.
-/

namespace AeadStream.Cbor

/-! ## Pieces -/

/-- **How to read** texts or byte strings, one piece after the other, into a `σ`. -/
structure PieceReader (σ : Type) where
  /-- the length in a head of the right kind -/
  length? : Head → Option (Option Nat)
  /-- a piece whose head starts at `start` and gives its length -/
  piece : (start length : Nat) → σ → Cursor → Except Fault (σ × Cursor)
  /-- a piece is not read backwards -/
  piece_le : ∀ {start length : Nat} {s t : σ} {c d : Cursor},
    piece start length s c = .ok (t, d) → d.rest.length ≤ c.rest.length

namespace PieceReader

variable {σ : Type} (r : PieceReader σ)

/-- The pieces up to the break that ends `nested` strings. -/
def upToBreak (nested : Nat) (s : σ) (c : Cursor) : Except Fault (σ × Cursor) :=
  match _h : Head.read c with
  | .error fault => .error fault
  | .ok (.break, d) => if nested ≤ 1 then .ok (s, d) else upToBreak (nested - 1) s d
  | .ok (head, d) =>
    match r.length? head with
    | none => .error (.malformed c.offset)
    | some none => upToBreak (nested + 1) s d
    | some (some length) =>
      match _hp : r.piece c.offset length s d with
      | .error fault => .error fault
      | .ok (s, e) => upToBreak nested s e
termination_by c.rest.length
decreasing_by
  · exact Head.read_ok _h
  · exact Head.read_ok _h
  · exact Nat.lt_of_le_of_lt (r.piece_le _hp) (Head.read_ok _h)

theorem upToBreak_le {nested : Nat} {s t : σ} {c d : Cursor}
    (h : r.upToBreak nested s c = .ok (t, d)) : d.rest.length ≤ c.rest.length := by
  fun_induction upToBreak r nested s c with
  | case1 => exact absurd h nofun
  | case2 nested s c d' hd hn =>
    obtain ⟨-, rfl⟩ := Prod.mk.inj (Except.ok.inj h)
    exact Nat.le_of_lt (Head.read_ok hd)
  | case3 nested s c d' hd hn ih =>
    exact Nat.le_trans (ih h) (Nat.le_of_lt (Head.read_ok hd))
  | case4 => exact absurd h nofun
  | case5 nested s c head d' hb hd hl ih =>
    exact Nat.le_trans (ih h) (Nat.le_of_lt (Head.read_ok hd))
  | case6 => exact absurd h nofun
  | case7 nested s c head d' hb hd length hl s' e hp ih =>
    have hle := Nat.le_trans (ih h) (r.piece_le hp)
    exact Nat.le_trans hle (Nat.le_of_lt (Head.read_ok hd))

/-- **The content** behind a head that was looked at before. -/
def content (length : Option Nat) (s : σ) (c : Cursor) : Except Fault (σ × Cursor) :=
  match length with
  | some length => r.piece (c.offset - Head.shortestSize length) length s c
  | none => r.upToBreak 1 s c

theorem content_le {length : Option Nat} {s t : σ} {c d : Cursor}
    (h : r.content length s c = .ok (t, d)) : d.rest.length ≤ c.rest.length := by
  unfold content at h
  split at h
  · exact r.piece_le h
  · exact r.upToBreak_le h

end PieceReader

/-- The most bytes of a text that are read at once. -/
def sliceSize : Nat := 4096

/-- A piece of text, joined to the text before it. Each piece is text on its own. A long one is
read slice by slice, and a slice that is not text is refused before the next one is read; a
character that a slice cuts off starts the next one. -/
def textPiece (start length : Nat) (s : String) (c : Cursor) : Except Fault (String × Cursor) :=
  if length ≤ sliceSize then
    match c.take length with
    | .error fault => .error fault
    | .ok (bytes, d) =>
      match Text.ofUtf8? bytes with
      | none => .error (.malformed start)
      | some piece => .ok (s ++ piece, d)
  else
    match c.take sliceSize with
    | .error fault => .error fault
    | .ok (bytes, _) =>
      match _h : Text.frontOfUtf8? bytes with
      | none => .error (.malformed start)
      | some (front, behind) =>
        let size := sliceSize - behind
        textPiece start (length - size) (s ++ front) (c.skip size)
termination_by length
decreasing_by
  have := Text.frontOfUtf8?_le _h
  simp only [sliceSize] at *
  omega

theorem textPiece_le {start length : Nat} {s t : String} {c d : Cursor}
    (h : textPiece start length s c = .ok (t, d)) : d.rest.length ≤ c.rest.length := by
  fun_induction textPiece start length s c with
  | case1 => exact absurd h nofun
  | case2 => exact absurd h nofun
  | case3 length s c hl bytes e ht =>
    obtain ⟨-, rfl⟩ := Prod.mk.inj (Except.ok.inj h)
    simp [(Cursor.take_ok ht).1]
  | case4 => exact absurd h nofun
  | case5 => exact absurd h nofun
  | case6 length s c hl bytes e ht front behind hf size ih =>
    refine Nat.le_trans (ih h) ?_
    simp [Cursor.skip]

/-- **Reading texts.** -/
def textReader : PieceReader String where
  length?
    | .text length => some length
    | _ => none
  piece := textPiece
  piece_le := textPiece_le

/-- **Passing over byte strings.** -/
def bytesReader : PieceReader Unit where
  length?
    | .bytes length => some length
    | _ => none
  piece _ length _ c := (c.take length).map fun taken => ((), taken.2)
  piece_le {start length s t c d} h := by
    cases ht : c.take length with
    | error fault => rw [ht] at h; exact absurd h nofun
    | ok taken =>
      obtain ⟨bytes, e⟩ := taken
      rw [ht] at h
      obtain ⟨-, rfl⟩ := Prod.mk.inj (Except.ok.inj h)
      simp [(Cursor.take_ok ht).1]

/-! ## Passing over items -/

/-- The greatest number of items that may lie within one another, the outermost included. -/
def maxDepth : Nat := 256

/-- **What is open** around a place: a number of items that are still to come, or items up to a
break. In a map up to a break the break stands where a key would. -/
inductive Open
  | counted (items : Nat)
  | upToBreak
  | pairsUpToBreak (atKey : Bool)

namespace Open

/-- The head closes the level. -/
def isClosedBy (level : Open) (head : Head) : Bool :=
  match level, head with
  | upToBreak, .break | pairsUpToBreak true, .break => true
  | _, _ => false

/-- The level after one more item. -/
def afterItem : Open → Open
  | counted items => counted (items - 1)
  | upToBreak => upToBreak
  | pairsUpToBreak atKey => pairsUpToBreak !atKey

end Open

/-- The least number that 128 bits with a sign do not hold. -/
def signed128Limit : Nat := 0x80000000000000000000000000000000

/-- Passes over the item with the given head, as far as it holds no others; otherwise what it
opens is given. Behind a tag there has to be a head; an integer given by its bytes is one item
with them. -/
def passHead (head : Head) (c : Cursor) : Except Fault (Option Open × Cursor) :=
  match head with
  | .unsigned _ | .negative _ | .float _
  | .simple 20 | .simple 21 | .simple 22 | .simple 23 => .ok (none, c)
  | .simple _ => .error (.wrongKind head "known simple value")
  | .break => .error (.wrongKind head "non-break")
  | .bytes length => (bytesReader.content length () c).map fun read => (none, read.2)
  | .text length => (textReader.content length "" c).map fun read => (none, read.2)
  | .array (some length) => .ok (some (.counted length), c)
  | .array none => .ok (some .upToBreak, c)
  | .map (some length) => .ok (some (.counted (2 * length)), c)
  | .map none => .ok (some (.pairsUpToBreak true), c)
  | .tag number =>
    match Head.read c with
    | .error fault => .error fault
    | .ok (next, d) =>
      if number = 2 ∨ number = 3 then
        match next with
        | .bytes (some length) =>
          if length ≤ 16 then
            match d.take length with
            | .error fault => .error fault
            | .ok (bytes, d) =>
              if number = 3 ∧ signed128Limit ≤ natOfBe bytes then .error .integerTooLarge
              else .ok (none, d)
          else .ok (some (.counted 1), c)
        | _ => .ok (some (.counted 1), c)
      else .ok (some (.counted 1), c)

theorem passHead_le {head : Head} {c d : Cursor} {opened : Option Open}
    (h : passHead head c = .ok (opened, d)) : d.rest.length ≤ c.rest.length := by
  have keep {o : Option Open} (h : Except.ok (ε := Fault) (o, c) = .ok (opened, d)) :
      d.rest.length ≤ c.rest.length := by
    obtain ⟨-, rfl⟩ := Prod.mk.inj (Except.ok.inj h)
    exact Nat.le_refl _
  unfold passHead at h
  split at h
  any_goals exact keep h
  · exact absurd h nofun
  · exact absurd h nofun
  · rename_i length
    cases hr : bytesReader.content length () c with
    | error fault => rw [hr] at h; exact absurd h nofun
    | ok read =>
      rw [hr] at h
      obtain ⟨-, rfl⟩ := Prod.mk.inj (Except.ok.inj h)
      exact bytesReader.content_le (t := read.1) (d := read.2) hr
  · rename_i length
    cases hr : textReader.content length "" c with
    | error fault => rw [hr] at h; exact absurd h nofun
    | ok read =>
      rw [hr] at h
      obtain ⟨-, rfl⟩ := Prod.mk.inj (Except.ok.inj h)
      exact textReader.content_le (t := read.1) (d := read.2) hr
  · split at h
    · exact absurd h nofun
    · rename_i next e hnext
      have hle := Nat.le_of_lt (Head.read_ok hnext)
      split at h
      · split at h
        · split at h
          · split at h
            · exact absurd h nofun
            · rename_i bytes e' ht
              split at h
              · exact absurd h nofun
              · obtain ⟨-, rfl⟩ := Prod.mk.inj (Except.ok.inj h)
                refine Nat.le_trans ?_ hle
                simp [(Cursor.take_ok ht).1]
          · exact keep h
        · exact keep h
      · exact keep h

/-- Passes over everything that is open, from the inside out. -/
def passOpen (opened : List Open) (c : Cursor) : Except Fault Cursor :=
  match opened with
  | [] => .ok c
  | .counted 0 :: outer => passOpen outer c
  | level :: outer =>
    match _h : Head.read c with
    | .error fault => .error fault
    | .ok (head, d) =>
      if level.isClosedBy head then passOpen outer d
      else
        match _hp : passHead head d with
        | .error fault => .error fault
        | .ok (none, e) => passOpen (level.afterItem :: outer) e
        | .ok (some inner, e) =>
          if maxDepth ≤ outer.length + 1 then .error .tooDeep
          else passOpen (inner :: level.afterItem :: outer) e
termination_by (c.rest.length, opened.length)
decreasing_by
  · exact Prod.Lex.right _ (Nat.lt_succ_self _)
  · exact Prod.Lex.left _ _ (Head.read_ok _h)
  · exact Prod.Lex.left _ _ (Nat.lt_of_le_of_lt (passHead_le _hp) (Head.read_ok _h))
  · exact Prod.Lex.left _ _ (Nat.lt_of_le_of_lt (passHead_le _hp) (Head.read_ok _h))

/-- **Passing over an item** inside the outermost one. -/
def passItem (c : Cursor) : Except Fault Cursor := passOpen [.counted 1] c

theorem passOpen_le {opened : List Open} {c d : Cursor} (h : passOpen opened c = .ok d) :
    d.rest.length ≤ c.rest.length := by
  fun_induction passOpen opened c with
  | case1 c => obtain rfl := Except.ok.inj h; exact Nat.le_refl _
  | case2 c outer ih => exact ih h
  | case3 => exact absurd h nofun
  | case4 c level outer hc head e hr hclosed ih =>
    exact Nat.le_trans (ih h) (Nat.le_of_lt (Head.read_ok hr))
  | case5 => exact absurd h nofun
  | case6 c level outer hc head e hr hclosed e' hp ih =>
    exact Nat.le_trans (ih h)
      (Nat.le_trans (passHead_le hp) (Nat.le_of_lt (Head.read_ok hr)))
  | case7 => exact absurd h nofun
  | case8 c level outer hc head e hr hclosed inner e' hp hdepth ih =>
    exact Nat.le_trans (ih h)
      (Nat.le_trans (passHead_le hp) (Nat.le_of_lt (Head.read_ok hr)))

/-- An item is not passed over backwards. -/
theorem passItem_le {c d : Cursor} (h : passItem c = .ok d) : d.rest.length ≤ c.rest.length :=
  passOpen_le h

end AeadStream.Cbor
