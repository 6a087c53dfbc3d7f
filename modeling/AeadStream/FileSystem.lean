import AeadStream.Source
import AeadStream.Tree

/-!
# Files

A file system as a value: names, and the files that they stand for. A file is written under its
number, once a path led to it, and is the same under all of its names. What is removed is a name,
never a file.
-/

namespace AeadStream

/-- The mode of a file that is made without asking for one. -/
def standardMode : Nat := 0o644

/-- The mode of a file that only its owner may read. -/
def privateMode : Nat := 0o600

/-- **A file.** -/
structure File where
  contents : Bytes := []
  mode : Nat := standardMode
deriving DecidableEq

/-- **What a path can lead to:** a file by its number, or a directory. -/
inductive Node
  | file (id : Nat)
  | directory
deriving DecidableEq

/-- **A file system:** names, and the files with all numbers. Only files with a name can be
opened. -/
structure FileSystem extends Tree where
  file : Nat → File := fun _ => {}

namespace FileSystem

/-! ## Opening -/

/-- **Opening** what is there, to read it. -/
def openNode (fs : FileSystem) (path : String) : Except FileFault Node :=
  match fs.resolve .reading path with
  | .error fault => .error fault
  | .ok (.directory _) => .ok .directory
  | .ok (.file _ id) => .ok (.file id)
  | .ok (.link _) => .error .tooManyLinks
  | .ok (.missing _) => .error .notFound

/-- A directory can be opened but not read. -/
def unreadable : Source := { rest := [], stop := some (0, .file .isADirectory) }

/-- A source of what was opened. -/
def source (fs : FileSystem) : Node → Source
  | .file id => .ofBytes (fs.file id).contents
  | .directory => unreadable

/-- **Reading** a whole file. -/
def read (fs : FileSystem) (path : String) : Except FileFault Bytes :=
  match fs.openNode path with
  | .error fault => .error fault
  | .ok (.file id) => .ok (fs.file id).contents
  | .ok .directory => .error .isADirectory

/-! ## Making and writing -/

/-- The file with the number is the given one, instead of what it was. -/
def put (fs : FileSystem) (id : Nat) (file : File) : FileSystem :=
  { fs with file := fun n => if n = id then file else fs.file n }

/-- **Writing** the contents of a file that is open. -/
def write (fs : FileSystem) (id : Nat) (contents : Bytes) : FileSystem :=
  fs.put id { fs.file id with contents }

/-- A new file under a path, beside its number. -/
def add (fs : FileSystem) (path : Path) (file : File) : Nat × FileSystem :=
  (fs.fresh, { fs.put fs.fresh file with toTree := fs.insert path (.file fs.fresh) })

/-- **Making** a file, or emptying it if it is there. -/
def create (fs : FileSystem) (path : String) : Except FileFault (Nat × FileSystem) :=
  match fs.resolve .making path with
  | .error fault => .error fault
  | .ok (.directory _) => .error .isADirectory
  | .ok (.file _ id) => .ok (id, fs.write id [])
  | .ok (.link _) => .error .tooManyLinks
  | .ok (.missing path) => .ok (fs.add path {})

/-- **Making a new file** that only its owner may read. -/
def createNew (fs : FileSystem) (path : String) : Except FileFault (Nat × FileSystem) :=
  match fs.resolve .makingNew path with
  | .error fault => .error fault
  | .ok (.directory _) | .ok (.file ..) | .ok (.link _) => .error .alreadyExists
  | .ok (.missing path) => .ok (fs.add path { mode := privateMode })

/-! ## Removing -/

/-- **Removing** a name. The file that it stands for stays what it is, and so does what a link leads
to. -/
def remove (fs : FileSystem) (path : String) : Except FileFault FileSystem :=
  match fs.resolve .removing path with
  | .error fault => .error fault
  | .ok (.directory _) => .error .isADirectory
  | .ok (.file path _) | .ok (.link path) => .ok { fs with toTree := fs.erase path }
  | .ok (.missing _) => .error .notFound

end FileSystem

end AeadStream
