import AeadStream.FileSystem
import AeadStream.Proofs.Tree

/-!
# Making, writing and removing files

A path at which a file is made leads to the file at its end, or to a new one where there is none;
the name that is removed later is the file's own, or that of a link on the way to it. Nothing but
this file and these names is changed, so whatever else could be opened is opened and read as before.

* `Leads` — the file that a path leads to if it is made or emptied;
* `Stored`, `stored_of_create`, `Stored.write` — what changes when that is done and the file
  written;
* `Stored.openNode`, `Leads.openNode` — what is opened afterwards;
* `Removed`, `Leads.remove` — what changes when the name is removed again.
-/

namespace AeadStream.FileSystem

open AeadStream.Tree

variable {fs fs' : FileSystem} {name path : Path} {written : String} {id : Nat} {contents : Bytes}
  {node : Node}

/-! ## Opening -/

/-- What can be opened at a place. -/
def node? : Place → Option Node
  | .directory _ => some .directory
  | .file _ id => some (.file id)
  | .link _ | .missing _ => none

/-- **A path can be opened** if it leads to something. -/
theorem openNode_eq_ok_iff :
    fs.openNode written = .ok node ↔
      ∃ place, fs.resolve .reading written = .ok place ∧ node? place = some node := by
  rw [openNode]
  constructor
  · intro h
    split at h
    · cases h
    · next hplace => cases h; exact ⟨_, hplace, rfl⟩
    · next hplace => cases h; exact ⟨_, hplace, rfl⟩
    · cases h
    · cases h
  · rintro ⟨place, hplace, hnode⟩
    rw [hplace]
    cases place with
    | directory => cases hnode; rfl
    | file => cases hnode; rfl
    | link => cases hnode
    | missing => cases hnode

/-- What was opened as before is read as before, if it is not the one file that may be another. -/
theorem read_of_openNode (hopen : fs.openNode written = .ok node)
    (hopen' : fs'.openNode written = .ok node) (hnode : node ≠ .file id)
    (hfiles : ∀ n, n ≠ id → fs'.file n = fs.file n) : fs'.read written = fs.read written := by
  rw [read, read, hopen, hopen']
  cases node with
  | directory => rfl
  | file n =>
    have hn : n ≠ id := fun heq => hnode (congrArg Node.file heq)
    dsimp only
    rw [hfiles n hn]

/-! ## Making and writing -/

/-- **The file that a path leads to** if it is made or emptied: the one at the end of the path, or a
new one if there is none. -/
inductive Leads (fs : FileSystem) (written : String) (path : Path) (id : Nat) : Prop
  | there (h : fs.resolve .making written = .ok (.file path id))
  | missing (h : fs.resolve .making written = .ok (.missing path)) (hid : id = fs.fresh)

/-- **A file was stored:** the path stands for it, and it has these contents. All other names stand
for what they stood for, and all other files are what they were. -/
structure Stored (fs : FileSystem) (path : Path) (id : Nat) (contents : Bytes) (fs' : FileSystem) :
    Prop extends Gains fs.toTree path id fs'.toTree where
  contents : (fs'.file id).contents = contents
  files : ∀ n, n ≠ id → fs'.file n = fs.file n

/-- Where nothing is, a new file is made. -/
theorem create_of_missing (h : fs.resolve .making written = .ok (.missing path)) :
    fs.create written = .ok (fs.add path {}) := by
  rw [create, h]

/-- One that is there is emptied. -/
theorem create_of_file (h : fs.resolve .making written = .ok (.file path id)) :
    fs.create written = .ok (id, fs.write id []) := by
  rw [create, h]

/-- **A file that is made** is the one that its path leads to, and empty. -/
theorem stored_of_create {made : Nat × FileSystem} (h : fs.create written = .ok made) :
    ∃ path, Leads fs written path made.1 ∧ Stored fs path made.1 [] made.2 := by
  rw [create] at h
  split at h
  · cases h
  · cases h
  · next path id hplace =>
    cases h
    have hentry : fs.find? path = some (.file id) := known_of_resolve hplace
    exact ⟨path, .there hplace, ⟨.inr hentry, hentry, fun _ _ => rfl, rfl⟩,
      congrArg File.contents (if_pos rfl), fun n hn => if_neg hn⟩
  · cases h
  · next path hplace =>
    cases h
    exact ⟨path, .missing hplace rfl, gains_insert (known_of_resolve hplace) _,
      congrArg File.contents (if_pos rfl), fun n hn => if_neg hn⟩

namespace Stored

/-- What is written to the file later is in it instead. -/
theorem write (h : Stored fs path id contents fs') (later : Bytes) :
    Stored fs path id later (fs'.write id later) :=
  ⟨h.toGains, congrArg File.contents (if_pos rfl), fun n hn => (if_neg hn).trans (h.files n hn)⟩

/-- **Whatever could be opened** is opened as before. -/
theorem openNode (h : Stored fs path id contents fs') (hopen : fs.openNode written = .ok node) :
    fs'.openNode written = .ok node := by
  obtain ⟨place, hplace, hnode⟩ := openNode_eq_ok_iff.mp hopen
  refine openNode_eq_ok_iff.mpr ⟨_, h.resolve hplace, ?_⟩
  cases place with
  | directory => exact hnode
  | file => exact hnode
  | link => cases hnode
  | missing => cases hnode

/-- So is whatever could be read, but for the file itself. -/
theorem read_of_ne (h : Stored fs path id contents fs') (hopen : fs.openNode written = .ok node)
    (hnode : node ≠ .file id) : fs'.read written = fs.read written :=
  read_of_openNode hopen (h.openNode hopen) hnode h.files

/-- The file itself has the contents that were stored, under all of its names. -/
theorem read_self (h : Stored fs path id contents fs')
    (hopen : fs.openNode written = .ok (.file id)) :
    fs'.read written = .ok contents := by
  rw [FileSystem.read, h.openNode hopen, ← h.contents]

/-- All but the file itself is a source of what it was. -/
theorem source (h : Stored fs path id contents fs') (hnode : node ≠ .file id) :
    fs'.source node = fs.source node := by
  cases node with
  | directory => rfl
  | file n =>
    have hn : n ≠ id := fun heq => hnode (congrArg Node.file heq)
    rw [FileSystem.source, FileSystem.source, h.files n hn]

end Stored

namespace Leads

/-- The path of a file that was stored is resolved to it, and no longer to nothing. -/
theorem resolve (h : Leads fs written path id) (hstored : Stored fs path id contents fs') :
    fs'.resolve .making written = .ok (.file path id) := by
  cases h with
  | there hplace => exact hstored.toGains.resolve hplace
  | missing hplace =>
    rw [hstored.toGains.resolve hplace]
    exact congrArg Except.ok (if_pos rfl)

/-- **The file that was stored** is opened and read. -/
theorem openNode (h : Leads fs written path id) (hstored : Stored fs path id contents fs') :
    fs'.openNode written = .ok (.file id) ∧ fs'.read written = .ok contents := by
  have hopen : fs'.openNode written = .ok (.file id) :=
    openNode_eq_ok_iff.mpr ⟨_, resolve_reading_of_making (h.resolve hstored), rfl⟩
  refine ⟨hopen, ?_⟩
  rw [read, hopen, ← hstored.contents]

/-- What was there before is this file. -/
theorem eq_of_openNode (h : Leads fs written path id) (hstored : Stored fs path id contents fs')
    (hopen : fs.openNode written = .ok node) : node = .file id := by
  cases (hstored.openNode hopen).symm.trans (h.openNode hstored).1
  rfl

/-- A file that some path leads to was there before it was made. -/
theorem there_of_openNode {other : String} (h : Leads fs written path id)
    (hopen : fs.openNode other = .ok (.file id)) : fs.openNode written = .ok (.file id) := by
  cases h with
  | there hplace =>
    exact openNode_eq_ok_iff.mpr ⟨_, resolve_reading_of_making hplace, rfl⟩
  | missing hplace hid =>
    obtain ⟨place, hplace, hnode⟩ := openNode_eq_ok_iff.mp hopen
    cases place with
    | file q n =>
      cases hnode
      have hlt : id < fs.fresh := lt_fresh (known_of_resolve hplace)
      exact absurd hid (Nat.ne_of_lt hlt)
    | directory => cases hnode
    | link => cases hnode
    | missing => cases hnode

end Leads

/-! ## Removing -/

/-- **A name was removed** after a file was stored behind it. It is the file's own, or that of a
link, and then the file is still where the link led. All other names stand for what they stood for,
all other files are what they were, and who did not come to this file comes to where he came. -/
structure Removed (fs : FileSystem) (written : String) (name path : Path) (id : Nat)
    (fs' : FileSystem) : Prop where
  closed : fs'.openNode written = .error .notFound
  gone : fs'.find? name = none
  own : name = path ∨
    (∃ target, fs.find? name = some (.link target)) ∧ fs'.find? path = some (.file id)
  others : ∀ q, q ≠ name → q ≠ path → fs'.find? q = fs.find? q
  files : ∀ n, n ≠ id → fs'.file n = fs.file n
  workingDirectory : fs'.workingDirectory = fs.workingDirectory
  elsewhere : ∀ other node, fs.openNode other = .ok node → node ≠ .file id →
    fs'.openNode other = .ok node

/-- No name is left of a file whose own name was removed, if it had no other. -/
theorem Removed.unnamed (h : Removed fs written path path id fs')
    (honly : ∀ q, q ≠ path → fs.find? q ≠ some (.file id)) (q : Path) :
    fs'.find? q ≠ some (.file id) := by
  by_cases hq : q = path
  · rw [hq, h.gone]
    intro heq
    cases heq
  · rw [h.others q hq hq]
    exact honly q hq

/-- A name that is removed stood for a file or a link. -/
theorem remove_eq_ok_iff :
    fs.remove written = .ok fs' ↔ ∃ place name, fs.resolve .removing written = .ok place ∧
      place.IsAt name ∧ fs' = { fs with toTree := fs.erase name } := by
  rw [remove]
  constructor
  · intro h
    split at h
    · cases h
    · cases h
    · next name id hplace => cases h; exact ⟨_, name, hplace, rfl, rfl⟩
    · next name hplace => cases h; exact ⟨_, name, hplace, rfl, rfl⟩
    · cases h
  · rintro ⟨place, name, hplace, hat, rfl⟩
    rw [hplace]
    cases place with
    | file => cases hat; rfl
    | link => cases hat; rfl
    | directory => exact hat.elim
    | missing => exact hat.elim

/-- What is changed if a name is erased to which the path was walked. -/
theorem Stored.erase (h : Stored fs path id contents fs') {place : Place}
    (hplace : fs'.resolve .removing written = .ok place) (hat : place.IsAt name)
    (hbehind : fs'.Behind path id name) :
    Removed fs written name path id { fs' with toTree := fs'.erase name } := by
  have hloses : Loses fs'.toTree name (fs'.erase name) :=
    loses_erase ((known_of_resolve hplace).ne_directory hat)
  refine ⟨?_, hloses.after, ?_, fun q hname hpath => ?_, h.files,
    hloses.workingDirectory.trans h.workingDirectory, fun other node hopen hnode => ?_⟩
  · rw [FileSystem.openNode]
    obtain hmissing | hfault := hloses.resolve hplace hat
    · rw [hmissing]
    · rw [hfault]
  · cases hbehind with
    | own => exact .inl rfl
    | link hlink =>
      have hother : name ≠ path := by
        rintro rfl
        cases hlink.symm.trans h.after
      exact .inr ⟨⟨_, (h.others name hother).symm.trans hlink⟩,
        (hloses.others path hother.symm).trans h.after⟩
  · exact (hloses.others q hname).trans (h.others q hpath)
  · obtain ⟨found, hfound, hnode?⟩ := openNode_eq_ok_iff.mp (h.openNode hopen)
    have hne : found ≠ .file path id := by
      rintro rfl
      cases hnode?
      exact hnode rfl
    exact openNode_eq_ok_iff.mpr ⟨found, hloses.resolve_elsewhere hbehind hfound hne, hnode?⟩

/-- **The name of a file that was stored** can be removed again. -/
theorem Leads.remove (h : Leads fs written path id) (hstored : Stored fs path id contents fs') :
    ∃ name fs'', fs'.remove written = .ok fs'' ∧ Removed fs written name path id fs'' := by
  obtain ⟨found, name, hfound, hat, hbehind⟩ := resolve_removing_of_making (h.resolve hstored)
  exact ⟨name, _, remove_eq_ok_iff.mpr ⟨found, name, hfound, hat, rfl⟩,
    hstored.erase hfound hat hbehind⟩

end AeadStream.FileSystem
