import AeadStream.Command.Run

/-!
# The program on a machine

The files that a command names are read from the disk, the program is run as a function on them,
and what it changed is written back. Nothing is decided here.
-/

namespace AeadStream.Machine

/-! ## From the disk -/

/-- A path as the disk knows it. -/
def onDisk (path : Path) : String := "/" ++ "/".intercalate path

/-- The files with what is at a path whose parent is a directory. A link is taken for what it leads
to in the end, and one that leads nowhere for nothing; a second name of a file is not seen to be
one. -/
def look (files : FileSystem) (path : Path) : IO FileSystem := do
  try
    let real := (← IO.FS.realPath (onDisk path)).toString
    if real ≠ onDisk path then return { files with toTree := files.insert path (.link real) }
    let contents ← IO.FS.readBinFile real
    return (files.add path { contents := contents.toList }).2
  catch
    | .noFileOrDirectory .. => return files
    | .inappropriateType .. => return { files with toTree := files.insert path .directory }
    | fault => throw fault

/-- Reads what is on the way along the given components. There are no links behind a link that was
looked at. -/
partial def load (files : FileSystem) (directory : Path) : List String → IO FileSystem
  | [] => return files
  | "" :: rest | "." :: rest => load files directory rest
  | ".." :: rest => load files directory.dropLast rest
  | name :: rest => do
    let path := directory ++ [name]
    let files ← if (files.find? path).isNone then look files path else pure files
    match files.find? path with
    | some .directory => load files path rest
    | some (.link target) => load files [] (Tree.components target ++ rest)
    | some (.file _) | none => return files

/-- The files that a command names. -/
def loadAll (command : Command) : IO FileSystem := do
  let workingDirectory := (← IO.currentDir).toString
  let names := (Tree.components workingDirectory).filter (· ≠ "")
  let start ← load { workingDirectory := names } [] names
  command.paths.foldlM (fun files path =>
    load files (Tree.origin files.workingDirectory path) (Tree.components path)) start

/-- All bytes of a stream, behind those that were read. -/
partial def readAll (stream : IO.FS.Stream) (got : ByteArray) : IO ByteArray := do
  let bytes ← stream.read 65536
  if bytes.isEmpty then return got else readAll stream (got ++ bytes)

/-! ## To the disk -/

/-- Writes a file; one that only its owner may read is made for the owner alone. -/
def writeFile (path : Path) (file : File) : IO Unit := do
  let bytes := ByteArray.mk file.contents.toArray
  if file.mode = privateMode then
    let handle ← IO.FS.Handle.mk (onDisk path) .writeNew
    IO.setAccessRights (onDisk path) { user := { read := true, write := true } }
    handle.write bytes
  else IO.FS.writeBinFile (onDisk path) bytes

/-- Removes the names that a run removed, and writes the files that it made or changed. -/
def store (old new : FileSystem) : IO Unit := do
  for (path, _) in old.entries do
    if (new.find? path).isNone then IO.FS.removeFile (onDisk path)
  for (path, entry) in new.entries do
    match entry with
    | .file id =>
      if old.find? path ≠ some entry ∨ old.file id ≠ new.file id then
        writeFile path (new.file id)
    | .directory | .link _ => pure ()

/-! ## Running -/

/-- The environment variable that, where it is set, decides what the log shows. -/
def logVariable : String := "RUST_LOG"

/-- Runs the program and reports its exit code. -/
def run (arguments : List String) : IO UInt32 := do
  let (files, stdin) ← match Arguments.parse arguments with
    | some (.run _ command) =>
      let files ← loadAll command
      let stdin ← if command.readsStandard then readAll (← IO.getStdin) .empty else pure .empty
      pure (files, stdin.toList)
    | _ => pure ({}, [])
  let random : Tape := ⟨(← IO.getRandomBytes 64).toList⟩
  let (report, level) := runProgram files (.stream stdin) random arguments
  store files report.files
  let stdout ← IO.getStdout
  stdout.write (ByteArray.mk report.output.toArray)
  stdout.flush
  for line in report.log ((← IO.getEnv logVariable).getD level) do
    IO.eprintln line
  if let some line := report.error then IO.eprintln line
  if report.exitCode = 2 then IO.eprint usage
  return UInt32.ofNat report.exitCode

end AeadStream.Machine

/-- The command line. A fault of the machine itself ends the program like any other. -/
def main (arguments : List String) : IO UInt32 := do
  try AeadStream.Machine.run arguments
  catch fault =>
    IO.eprintln s!"Error: {fault}"
    return 1
