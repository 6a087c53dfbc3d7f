import AeadStream.Tree

/-!
# Walking along paths

A walk sees a tree only through what the names on its way stand for. So two walks, in two trees or
for two purposes, go the same way as long as they meet the same, and what can be said of their ends
follows from what can be said of each name that they meet.

* `Follows`, `Simulation` — what one walk does at a name, next to another;
* `Simulation.resolve` — the ends of both, by induction on the walk;
* `resolve_reading_of_making` — who resolves a path to make a file finds what a reader finds;
* `Behind`, `resolve_removing_of_making` — and removes a name that the file is behind, its own or
  that of a link;
* `eq_file_of_walk` — behind which there is nothing else;
* `Gains`, `Loses` — trees in which one more path stands for a file, or one less for anything;
* `Gains.resolve`, `Loses.resolve`, `Loses.resolve_elsewhere` — what paths lead to in them.
-/

namespace AeadStream.Tree

variable {t t' : Tree} {purpose purpose' : Purpose} {links id : Nat} {directory path p q : Path}
  {written target : String} {rest names : List String} {place place' : Place}
  {fault fault' : FileFault}

/-! ## Entries -/

/-- What is left when an entry is removed. -/
theorem lookup_filter (entries : List (Path × Entry)) (p q : Path) :
    (entries.filter fun entry => entry.1 ≠ p).lookup q =
      if q = p then none else entries.lookup q := by
  induction entries with
  | nil => simp
  | cons entry entries ih =>
    obtain ⟨key, node⟩ := entry
    by_cases hkey : key = p
    · subst hkey
      rw [List.filter_cons_of_neg (by simp), ih, List.lookup_cons]
      split
      · rfl
      · next hne => simp [beq_false_of_ne hne]
    · rw [List.filter_cons_of_pos (by simpa using hkey), List.lookup_cons, List.lookup_cons, ih]
      by_cases hq : q = key
      · subst hq
        simp [hkey]
      · simp [beq_false_of_ne hq]

/-- The root is a directory. -/
theorem ne_root (h : t.find? p ≠ some .directory) : p ≠ [] := by
  rintro rfl
  exact h (if_pos rfl)

/-- What was put under a path is there. -/
theorem find?_insert_self (hp : p ≠ []) (entry : Entry) :
    (t.insert p entry).find? p = some entry := by
  rw [find?, if_neg hp, insert, List.lookup_cons, beq_self_eq_true]

/-- Other paths stand for what they stood for. -/
theorem find?_insert_of_ne (hq : q ≠ p) (entry : Entry) :
    (t.insert p entry).find? q = t.find? q := by
  rw [find?, find?, insert, erase, List.lookup_cons, beq_false_of_ne hq]
  dsimp only
  rw [lookup_filter, if_neg hq]

/-- A path that was erased stands for nothing. -/
theorem find?_erase_self (hp : p ≠ []) : (t.erase p).find? p = none := by
  rw [find?, if_neg hp, erase]
  dsimp only
  rw [lookup_filter, if_pos rfl]

/-- Other paths stand for what they stood for. -/
theorem find?_erase_of_ne (hq : q ≠ p) : (t.erase p).find? q = t.find? q := by
  rw [find?, find?, erase]
  dsimp only
  rw [lookup_filter, if_neg hq]

/-- The number of a file that is made is above those of all files with a name. -/
theorem lt_fresh (h : t.find? p = some (.file id)) : id < t.fresh := by
  rw [find?] at h
  split at h
  · cases h
  rw [fresh]
  generalize t.entries = entries at h
  induction entries with
  | nil => cases h
  | cons entry entries ih =>
    obtain ⟨key, found⟩ := entry
    rw [List.map_cons, List.foldr_cons]
    rw [List.lookup_cons] at h
    split at h
    · cases h
      exact Nat.lt_of_lt_of_le (Nat.lt_succ_self id) (Nat.le_max_left _ _)
    · exact Nat.lt_of_lt_of_le (ih h) (Nat.le_max_right _ _)

/-! ## What one walk does next to another -/

variable {R : Place → Except FileFault Place → Prop} {B : String → Place → Prop}

/-- **What a walk does at a name,** next to one that does not fail there: both do the same, or one
of them ends. Ends are related as given, and if only one of the two ends, then to all that the other
may still come to. That is known of the first walk, which may be beyond a link. -/
inductive Follows (R : Place → Except FileFault Place → Prop) (B : String → Place → Prop) :
    Turn → Turn → Prop
  | into (directory : Path) : Follows R B (.into directory) (.into directory)
  | through (target : String) : Follows R B (.through target) (.through target)
  | stops (target : String) {result : Except FileFault Place}
    (h : ∀ place, B target place → R place result) :
    Follows R B (.through target) (.ends result)
  | ends {place : Place} {result : Except FileFault Place} (h : R place result) :
    Follows R B (.ends (.ok place)) (.ends result)
  | passes {place : Place} (turn : Turn) (h : ∀ result, R place result) :
    Follows R B (.ends (.ok place)) turn
  | failed (fault : FileFault) (turn : Turn) : Follows R B (.ends (.error fault)) turn

/-- Two walks that end at the same name are related as its places are. -/
theorem Follows.endsAt (h : R place (.ok place')) :
    Follows R B (.endsAt place rest fault) (.endsAt place' rest fault') := by
  rw [Turn.endsAt, Turn.endsAt]
  split
  · exact .ends h
  · exact .failed _ _

/-- One that ends where its place is related to all that the other may come to, if it does not
fail. -/
theorem Follows.endsAt_passes (turn : Turn) (h : ∀ result, R place result) :
    Follows R B (.endsAt place rest fault) turn := by
  rw [Turn.endsAt]
  split
  · exact .passes turn h
  · exact .failed fault turn

/-- A walk next to itself, if its places are related to themselves. -/
theorem Follows.meets {entry : Option Entry}
    (hfile : ∀ id, entry = some (.file id) → R (.file path id) (.ok (.file path id)))
    (hlink : ∀ target, entry = some (.link target) → R (.link path) (.ok (.link path)))
    (hmissing : entry = none → R (.missing path) (.ok (.missing path))) :
    Follows R B (purpose.meets path rest entry) (purpose.meets path rest entry) := by
  cases entry with
  | none => exact .endsAt (hmissing rfl)
  | some entry =>
    cases entry with
    | directory => exact .into path
    | file id => exact .endsAt (hfile id rfl)
    | link target =>
      rw [Purpose.meets]
      split
      · exact .through target
      · exact .endsAt (hlink target rfl)

/-- **A place is beyond a link** if someone who follows it comes there, with so many links left and
these components behind it. -/
def Beyond (t : Tree) (purpose : Purpose) (directory : Path) (rest : List String)
    (target : String) (place : Place) : Prop :=
  ∃ links, t.walk purpose links (origin directory target) (components target ++ rest) = .ok place

/-- **A walk next to another,** in a tree and for a purpose of its own. -/
structure Simulation (R : Place → Except FileFault Place → Prop) (t t' : Tree)
    (purpose purpose' : Purpose) : Prop where
  workingDirectory : t'.workingDirectory = t.workingDirectory
  makes : purpose'.makes = true → purpose.makes = true
  directory : ∀ d, R (.directory d) (.ok (.directory d))
  meets : ∀ path rest, ¬(purpose.makes = true ∧ rest ≠ [] ∧ Last rest) →
    Follows R (t.Beyond purpose path.dropLast rest) (purpose.meets path rest (t.find? path))
      (purpose'.meets path rest (t'.find? path))

namespace Simulation

/-- At one component. -/
theorem turn (h : Simulation R t t' purpose purpose') (directory : Path) (name : String)
    (rest : List String) :
    Follows R (t.Beyond purpose directory rest) (t.turn purpose directory name rest)
      (t'.turn purpose' directory name rest) := by
  rw [Tree.turn, Tree.turn]
  split
  · exact .into _
  split
  · exact .into _
  by_cases hslash : purpose.makes = true ∧ rest ≠ [] ∧ Last rest
  · rw [if_pos hslash]
    exact .failed _ _
  have hslash' : ¬(purpose'.makes = true ∧ rest ≠ [] ∧ Last rest) :=
    fun hboth => hslash ⟨h.makes hboth.1, hboth.2⟩
  rw [if_neg hslash, if_neg hslash']
  split
  · exact .failed _ _
  · have hmeets := h.meets (directory ++ [name]) rest hslash
    rwa [List.dropLast_concat] at hmeets

/-- Up to the first link, by induction on the components. -/
theorem walkToLink (h : Simulation R t t' purpose purpose')
    {follow follow' : Path → List String → Except FileFault Place}
    (hfollow : ∀ {directory names place}, follow directory names = .ok place →
      R place (follow' directory names))
    (hbeyond : ∀ {directory names place}, follow directory names = .ok place →
      ∃ links, t.walk purpose links directory names = .ok place)
    (hwalk : t.walkToLink purpose follow directory names = .ok place) :
    R place (t'.walkToLink purpose' follow' directory names) := by
  induction names generalizing directory with
  | nil =>
    cases hwalk
    exact h.directory directory
  | cons name rest ih =>
    have hfollows := h.turn directory name rest
    rw [Tree.walkToLink] at hwalk ⊢
    generalize t.turn purpose directory name rest = turn at hfollows hwalk
    generalize t'.turn purpose' directory name rest = other at hfollows
    cases hfollows with
    | into => exact ih hwalk
    | through => exact hfollow hwalk
    | stops _ hall => exact hall place (hbeyond hwalk)
    | ends hends =>
      cases hwalk
      exact hends
    | passes _ hall =>
      cases hwalk
      exact hall _
    | failed => cases hwalk

/-- All the way, by induction on the links. -/
theorem walk (h : Simulation R t t' purpose purpose')
    (hwalk : t.walk purpose links directory names = .ok place) :
    R place (t'.walk purpose' links directory names) := by
  induction links generalizing directory names place with
  | zero =>
    exact h.walkToLink (fun hfollow => by cases hfollow) (fun hfollow => by cases hfollow) hwalk
  | succ links ih => exact h.walkToLink ih (fun hfollow => ⟨links, hfollow⟩) hwalk

/-- From the path as it is written. -/
theorem resolve (h : Simulation R t t' purpose purpose')
    (hresolve : t.resolve purpose written = .ok place) : R place (t'.resolve purpose' written) := by
  rw [Tree.resolve] at hresolve ⊢
  split at hresolve
  · cases hresolve
  · next hsome =>
    split at hresolve
    · cases hresolve
    · next hshort =>
      rw [if_neg hsome, if_neg hshort, h.workingDirectory]
      exact h.walk hresolve

end Simulation

/-! ## Purposes -/

/-- **Who resolves a path to make a file** finds what a reader finds. -/
theorem resolve_reading_of_making (h : t.resolve .making written = .ok place) :
    t.resolve .reading written = .ok place := by
  have hsame : Simulation (fun place result => result = .ok place) t t .making .reading := by
    refine ⟨rfl, fun _ => rfl, fun _ => rfl, fun path rest _ => ?_⟩
    cases t.find? path with
    | none => exact .endsAt rfl
    | some entry =>
      cases entry with
      | directory => exact .into _
      | file => exact .endsAt rfl
      | link => exact .through _
  exact hsame.resolve h

/-! ## What is at the end -/

/-- **What is known** of a place. -/
def Place.Known (t : Tree) : Place → Prop
  | .directory _ => True
  | .file path id => t.find? path = some (.file id)
  | .link path => ∃ target, t.find? path = some (.link target)
  | .missing path => t.find? path = none

/-- **At the end of a path** there is what was met. -/
theorem known_of_resolve (h : t.resolve purpose written = .ok place) : place.Known t := by
  have hknown : Simulation (fun place _ => place.Known t) t t purpose purpose := by
    refine ⟨rfl, id, fun _ => trivial, fun path rest _ => ?_⟩
    exact .meets (fun _ hfile => hfile) (fun target hlink => ⟨target, hlink⟩) id
  exact hknown.resolve h

/-- The name of a file or of a link was met there. -/
def Place.IsAt (p : Path) : Place → Prop
  | .file q _ | .link q => q = p
  | .directory _ | .missing _ => False

/-- So no directory is there. -/
theorem Place.Known.ne_directory (h : place.Known t) (hat : place.IsAt p) :
    t.find? p ≠ some .directory := by
  intro hdirectory
  cases place with
  | directory => exact hat
  | missing => exact hat
  | file =>
    cases hat
    cases hdirectory.symm.trans h
  | link =>
    cases hat
    obtain ⟨target, hlink⟩ := h
    cases hdirectory.symm.trans hlink

/-! ## Names that a file is behind -/

/-- **A file is behind a name** that is its own, or that of a link through which it can be made. -/
inductive Behind (t : Tree) (path : Path) (id : Nat) : Path → Prop
  | own (h : t.find? path = some (.file id)) : Behind t path id path
  | link {name : Path} {target : String} (hlink : t.find? name = some (.link target))
    (hbeyond : t.Beyond .making name.dropLast [] target (.file path id)) : Behind t path id name

/-- **Who removes a path again** at which a file was made removes a name that the file is behind. -/
theorem resolve_removing_of_making (h : t.resolve .making written = .ok (.file path id)) :
    ∃ found name, t.resolve .removing written = .ok found ∧ found.IsAt name ∧
      t.Behind path id name := by
  have hbehind : Simulation (fun place result => ∀ path id, place = .file path id →
      ∃ found name, result = .ok found ∧ found.IsAt name ∧ t.Behind path id name)
      t t .making .removing := by
    refine ⟨rfl, fun _ => rfl, fun _ _ _ hfile => (by cases hfile), fun path rest hslash => ?_⟩
    cases hentry : t.find? path with
    | none => exact .endsAt fun _ _ hfile => by cases hfile
    | some entry =>
      cases entry with
      | directory => exact .into _
      | file =>
        refine .endsAt fun _ _ hfile => ?_
        cases hfile
        exact ⟨_, path, rfl, rfl, .own hentry⟩
      | link target =>
        by_cases hlast : Last rest
        · -- a link in the last place, behind which there is nothing
          have hrest : rest = [] := Decidable.by_contra fun hne => hslash ⟨rfl, hne, hlast⟩
          subst hrest
          refine .stops target fun place hbeyond _ _ hfile => ?_
          subst hfile
          exact ⟨_, path, rfl, rfl, .link hentry hbeyond⟩
        · have hmeets : Purpose.meets .removing path rest (some (.link target)) = .through target :=
            if_pos (.inr hlast)
          rw [hmeets]
          exact .through target
  exact hbehind.resolve h path id rfl

/-- At each name, a walk to make a file goes on as one to read does that has more components left,
until both are at the file. -/
theorem follows_further (t : Tree) (path : Path) (id : Nat) (directory : Path) (name : String)
    (names rest : List String) :
    Follows (fun place result => place = .file path id →
        ∀ place', result = .ok place' → place' = .file path id) (fun _ _ => True)
      (t.turn .making directory name names) (t.turn .reading directory name (names ++ rest)) := by
  have hreading : ¬(Purpose.reading.makes = true ∧ names ++ rest ≠ [] ∧ Last (names ++ rest)) :=
    fun h => by cases h.1
  rw [turn, turn, if_neg hreading]
  split
  · exact .into _
  split
  · exact .into _
  split
  · exact .failed _ _
  split
  · exact .failed _ _
  cases t.find? (directory ++ [name]) with
  | none => exact .endsAt_passes _ fun _ hfile => by cases hfile
  | some entry =>
    cases entry with
    | directory => exact .into _
    | link target => exact .through target
    | file n =>
      rw [Purpose.meets, Purpose.meets, Turn.endsAt, Turn.endsAt]
      split
      · refine .ends fun hfile place' hplace => ?_
        split at hplace
        · cases hplace
          exact hfile
        · cases hplace
      · exact .failed _ _

/-- **Behind a file there is nothing:** where a file was made, each walk to read along the same
components, and more, comes to this file or fails. Up to the first link this is by induction on the
components, -/
theorem eq_file_of_walkToLink {follow follow' : Path → List String → Except FileFault Place}
    (hfollow : ∀ {directory names}, follow directory names = .ok (.file path id) →
      follow' directory (names ++ rest) = .ok place → place = .file path id)
    (h : t.walkToLink .making follow directory names = .ok (.file path id))
    (h' : t.walkToLink .reading follow' directory (names ++ rest) = .ok place) :
    place = .file path id := by
  induction names generalizing directory with
  | nil => cases h
  | cons name names ih =>
    have hfollows := t.follows_further path id directory name names rest
    rw [walkToLink] at h
    rw [List.cons_append, walkToLink] at h'
    generalize t.turn .making directory name names = turn at hfollows h
    generalize t.turn .reading directory name (names ++ rest) = other at hfollows h'
    cases hfollows with
    | into => exact ih h h'
    | through =>
      dsimp only at h'
      rw [← List.append_assoc] at h'
      exact hfollow h h'
    | stops _ hall => exact hall _ trivial rfl place h'
    | ends hends =>
      cases h
      exact hends rfl place h'
    | passes _ hall =>
      cases h
      exact hall _ rfl place h'
    | failed => cases h

/-- and all the way by induction on the links, of which the other walk may have another number. -/
theorem eq_file_of_walk {links' : Nat}
    (h : t.walk .making links directory names = .ok (.file path id))
    (h' : t.walk .reading links' directory (names ++ rest) = .ok place) :
    place = .file path id := by
  induction links generalizing links' directory names with
  | zero =>
    cases links' with
    | zero => exact eq_file_of_walkToLink (fun hfollow => by cases hfollow) h h'
    | succ => exact eq_file_of_walkToLink (fun hfollow => by cases hfollow) h h'
  | succ links ih =>
    cases links' with
    | zero => exact eq_file_of_walkToLink (fun _ hfollow => by cases hfollow) h h'
    | succ =>
      refine eq_file_of_walkToLink ?_ h h'
      intro _ _ hfollow hfollow'
      exact ih hfollow hfollow'

/-! ## One more path that stands for a file -/

/-- **A path stands for a file** where it stood for nothing, or for this file. -/
structure Gains (t : Tree) (p : Path) (id : Nat) (t' : Tree) : Prop where
  before : t.find? p = none ∨ t.find? p = some (.file id)
  after : t'.find? p = some (.file id)
  others : ∀ q, q ≠ p → t'.find? q = t.find? q
  workingDirectory : t'.workingDirectory = t.workingDirectory

/-- It does if it is put there. -/
theorem gains_insert (h : t.find? p = none) (id : Nat) : Gains t p id (t.insert p (.file id)) := by
  have hp : t.find? p ≠ some .directory := by
    rw [h]
    decide
  exact ⟨.inl h, find?_insert_self (ne_root hp) _, fun q hq => find?_insert_of_ne hq _, rfl⟩

/-- Where a walk ends after that. -/
def Place.gain (p : Path) (id : Nat) : Place → Place
  | .missing q => if q = p then .file p id else .missing q
  | place => place

/-- **Paths are resolved** as before, but for one that ended where there was nothing. -/
theorem Gains.resolve (h : Gains t p id t') (hresolve : t.resolve purpose written = .ok place) :
    t'.resolve purpose written = .ok (place.gain p id) := by
  have hgain : Simulation (fun place result => result = .ok (place.gain p id)) t t' purpose
      purpose := by
    refine ⟨h.workingDirectory, fun hmakes => hmakes, fun _ => rfl, fun path rest _ => ?_⟩
    by_cases hpath : path = p
    · subst hpath
      rw [h.after]
      obtain hnone | hfile := h.before
      · rw [hnone]
        exact .endsAt (congrArg Except.ok (if_pos rfl).symm)
      · rw [hfile]
        exact .endsAt rfl
    · rw [h.others path hpath]
      have hsame : Place.missing path = (Place.missing path).gain p id := (if_neg hpath).symm
      exact .meets (fun _ _ => rfl) (fun _ _ => rfl) fun _ => congrArg Except.ok hsame
  exact hgain.resolve hresolve

/-! ## A path that stands for nothing any more -/

/-- **A path stands for nothing** where it stood for a file or a link. -/
structure Loses (t : Tree) (p : Path) (t' : Tree) : Prop where
  before : t.find? p ≠ some .directory
  after : t'.find? p = none
  others : ∀ q, q ≠ p → t'.find? q = t.find? q
  workingDirectory : t'.workingDirectory = t.workingDirectory

/-- It does if it is erased. -/
theorem loses_erase (h : t.find? p ≠ some .directory) : Loses t p (t.erase p) :=
  ⟨h, find?_erase_self (ne_root h), fun _ hq => find?_erase_of_ne hq, rfl⟩

/-- **A path that ended there** leads to nothing. -/
theorem Loses.resolve (h : Loses t p t') (hresolve : t.resolve .removing written = .ok place)
    (hplace : place.IsAt p) :
    t'.resolve .reading written = .ok (.missing p) ∨
      t'.resolve .reading written = .error .notFound := by
  have hloss : Simulation (fun place result => place.IsAt p →
      result = .ok (.missing p) ∨ result = .error .notFound) t t' .removing .reading := by
    refine ⟨h.workingDirectory, id, fun _ hat => hat.elim, fun path rest _ => ?_⟩
    by_cases hpath : path = p
    · subst hpath
      rw [h.after]
      cases hentry : t.find? path with
      | none => exact .endsAt fun hat => hat.elim
      | some entry =>
        cases entry with
        | directory => exact absurd hentry h.before
        | file => exact .endsAt fun _ => .inl rfl
        | link target =>
          rw [Purpose.meets, Purpose.meets]
          split
          · next hgoes =>
            -- there is a name behind the link, which cannot be reached any more
            have hrest : rest ≠ [] := by
              rintro rfl
              exact hgoes.elim (by decide) fun hlast => hlast (by decide)
            rw [Turn.endsAt, if_neg hrest]
            exact .stops target fun _ _ _ => .inr rfl
          · exact .endsAt fun _ => .inl rfl
    · rw [h.others path hpath]
      cases t.find? path with
      | none => exact .endsAt fun hat => hat.elim
      | some entry =>
        cases entry with
        | directory => exact .into _
        | file => exact .endsAt fun hat => absurd hat hpath
        | link target =>
          rw [Purpose.meets]
          split
          · exact .through target
          · exact .endsAt_passes _ fun _ hat => absurd hat hpath
  exact hloss.resolve hresolve hplace

/-- **A path that led elsewhere** leads there still, if what was lost is a name that a file is
behind: whoever met this name came to the file, or to nothing. -/
theorem Loses.resolve_elsewhere (h : Loses t p t') (hbehind : t.Behind path id p)
    (hresolve : t.resolve .reading written = .ok place) (hplace : place ≠ .file path id) :
    t'.resolve .reading written = .ok place := by
  have hsame : Simulation (fun place result => place ≠ .file path id → result = .ok place) t t'
      .reading .reading := by
    refine ⟨h.workingDirectory, fun hmakes => hmakes, fun _ _ => rfl, fun q rest _ => ?_⟩
    by_cases hq : q = p
    · subst hq
      rw [h.after]
      cases hbehind with
      | own hfile =>
        rw [hfile]
        exact .endsAt_passes _ fun _ hne => absurd rfl hne
      | link hlink hbeyond =>
        rw [hlink]
        obtain ⟨links, hwalk⟩ := hbeyond
        rw [List.append_nil] at hwalk
        refine .stops _ fun place hthere hne => ?_
        obtain ⟨links', hwalk'⟩ := hthere
        exact absurd (eq_file_of_walk hwalk hwalk') hne
    · rw [h.others q hq]
      exact .meets (fun _ _ _ => rfl) (fun _ _ _ => rfl) fun _ _ => rfl
  exact hsame.resolve hresolve hplace

end AeadStream.Tree
