import AeadStream.Fault.Io

/-!
# Names and paths

The names in a file system as a value: which paths there are, and what each stands for. That is a
directory, a file, or a symbolic link, which is a path in writing. Files are known by their numbers,
so that one of them can have several names, none of them the first.

A written path is walked component by component, from the root or from the working directory. Each
component but the last has to lead to a directory, and the links on the way are followed. What
becomes of the last one depends on what the path is walked for.
-/

namespace AeadStream

/-- A path from the root as its components, all of them names. -/
abbrev Path := List String

/-- **What a name stands for.** -/
inductive Entry
  /-- the file with this number -/
  | file (id : Nat)
  | directory
  /-- the path that is written in a symbolic link -/
  | link (target : String)
deriving DecidableEq

/-- **The names of a file system,** and the directory that paths start from. The root itself is
always there. -/
structure Tree where
  entries : List (Path × Entry) := []
  workingDirectory : Path := []
deriving DecidableEq

namespace Tree

/-! ## Entries -/

/-- What a path stands for. -/
def find? (t : Tree) (path : Path) : Option Entry :=
  if path = [] then some .directory else t.entries.lookup path

/-- The path stands for nothing any more. -/
def erase (t : Tree) (path : Path) : Tree :=
  { t with entries := t.entries.filter fun entry => entry.1 ≠ path }

/-- The path stands for the given entry, instead of what it stood for. -/
def insert (t : Tree) (path : Path) (entry : Entry) : Tree :=
  { t with entries := (path, entry) :: (t.erase path).entries }

/-- A number above that of the file. -/
def bound : Entry → Nat
  | .file id => id + 1
  | _ => 0

/-- The number of a file that is made: no name stands for a file with this number yet. -/
def fresh (t : Tree) : Nat := (t.entries.map fun entry => bound entry.2).foldr max 0

/-! ## Walking -/

/-- **What a path is walked for.** -/
inductive Purpose
  /-- to read what is there -/
  | reading
  /-- to make a file, or to empty the one that is there -/
  | making
  /-- to make a file where nothing is -/
  | makingNew
  /-- to remove a name -/
  | removing
deriving DecidableEq

/-- A link in the last place is followed, too. -/
def Purpose.follows : Purpose → Bool
  | reading | making => true
  | makingNew | removing => false

/-- A file may be made. -/
def Purpose.makes : Purpose → Bool
  | making | makingNew => true
  | reading | removing => false

/-- **Where a walk ends.** -/
inductive Place
  | directory (path : Path)
  | file (path : Path) (id : Nat)
  /-- at a link that is not followed -/
  | link (path : Path)
  /-- in a directory, with a name that is not in it -/
  | missing (path : Path)
deriving DecidableEq

/-- **What a walk does** at one component. -/
inductive Turn
  /-- it goes on from a directory -/
  | into (directory : Path)
  /-- it follows a link -/
  | through (target : String)
  /-- it ends, at a place or for a fault -/
  | ends (result : Except FileFault Place)

/-- The longest name, in bytes. -/
def maxName : Nat := 255

/-- The longest path as it is written, in bytes. -/
def maxWritten : Nat := 4095

/-- How many links are followed for one path. -/
def maxLinks : Nat := 40

/-- The components of a path as it is written, also the empty ones between slashes. -/
def components (path : String) : List String := (path.toList.splitOn '/').map String.ofList

/-- Where a written path starts that is found in a directory. -/
def origin (directory : Path) (path : String) : Path :=
  if path.toList.head? = some '/' then [] else directory

/-- There are no components left but the empty ones behind slashes. -/
def Last (rest : List String) : Prop := ∀ name ∈ rest, name = ""

instance (rest : List String) : Decidable (Last rest) :=
  inferInstanceAs (Decidable (∀ name ∈ rest, name = ""))

/-- A walk that ends at a place, if there is nothing behind it. -/
def Turn.endsAt (place : Place) (rest : List String) (fault : FileFault) : Turn :=
  .ends (if rest = [] then .ok place else .error fault)

/-- What a walk does at a name, by what the name stands for. -/
def Purpose.meets (purpose : Purpose) (path : Path) (rest : List String) : Option Entry → Turn
  | some .directory => .into path
  | some (.file id) => .endsAt (.file path id) rest .notADirectory
  | some (.link target) =>
    if purpose.follows ∨ ¬Last rest then .through target
    else .endsAt (.link path) rest .notADirectory
  | none => .endsAt (.missing path) rest .notFound

/-- What a walk does at a component. The root is above itself. A file cannot be made under a name
with a slash behind it: the name is not even looked up. -/
def turn (t : Tree) (purpose : Purpose) (directory : Path) (name : String) (rest : List String) :
    Turn :=
  if name = "" ∨ name = "." then .into directory
  else if name = ".." then .into directory.dropLast
  else if purpose.makes ∧ rest ≠ [] ∧ Last rest then .ends (.error .isADirectory)
  else if maxName < name.utf8ByteSize then .ends (.error .nameTooLong)
  else purpose.meets (directory ++ [name]) rest (t.find? (directory ++ [name]))

/-- Walks from a directory through the given components up to the first link, and goes on from there
as given. What the link says is put in front of the components behind it. -/
def walkToLink (t : Tree) (purpose : Purpose)
    (follow : Path → List String → Except FileFault Place) (directory : Path) :
    List String → Except FileFault Place
  | [] => .ok (.directory directory)
  | name :: rest =>
    match t.turn purpose directory name rest with
    | .into directory => t.walkToLink purpose follow directory rest
    | .through target => follow (origin directory target) (components target ++ rest)
    | .ends result => result

/-- **Walks** from a directory through the given components, along so many links at most. -/
def walk (t : Tree) (purpose : Purpose) : Nat → Path → List String → Except FileFault Place
  | 0 => t.walkToLink purpose fun _ _ => .error .tooManyLinks
  | links + 1 => t.walkToLink purpose (t.walk purpose links)

/-- **Resolving** a path as it is written. -/
def resolve (t : Tree) (purpose : Purpose) (path : String) : Except FileFault Place :=
  if path = "" then .error .notFound
  else if maxWritten < path.utf8ByteSize then .error .nameTooLong
  else t.walk purpose maxLinks (origin t.workingDirectory path) (components path)

end Tree

end AeadStream
