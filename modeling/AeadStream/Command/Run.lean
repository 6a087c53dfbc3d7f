import AeadStream.Command.Arguments
import AeadStream.FileSystem
import AeadStream.KeyFile
import AeadStream.Pipe

/-!
# Running a command

The program as a function: from the files, what comes in and a source of random bytes to the exit
code, what goes out and the files afterwards. The key is read first, then the input is opened,
and only then is the output made or emptied; so if both lead to one file, there is nothing left to
read. The output of a failed decryption is removed by its name.
-/

namespace AeadStream

/-- **What a run leaves behind.** -/
structure Report where
  exitCode : Nat
  /-- what was written to the standard output -/
  output : Bytes := []
  /-- the line about the failure -/
  error : Option String := none
  files : FileSystem
  events : List Event := []

namespace Report

/-- A run that was refused its arguments. -/
def refused (files : FileSystem) : Report := { exitCode := 2, files }

/-- A run that failed, in the wording for programmers. -/
def failure (files : FileSystem) (fault : String) (output : Bytes) (events : List Event) :
    Report :=
  { exitCode := 1, output, error := some ("Error: " ++ fault), files, events }

/-- The lines of the log that are shown under a setting. -/
def log (report : Report) (setting : String) : List String :=
  (report.events.filter fun event => event.level.rank ≤ Level.threshold setting).map Event.line

end Report

namespace Command

/-! ## Opening both ends -/

/-- The name for the standard input or output. -/
def standard : String := "-"

/-- The files that a command names. -/
def paths (command : Command) : List String :=
  let named := match command with
    | keygen output => [output]
    | encrypt options .. | decrypt options _ =>
      [options.key.path, options.input, options.output]
  named.filter (· ≠ standard)

/-- The command reads the standard input. -/
def readsStandard : Command → Bool
  | keygen _ => false
  | encrypt options .. | decrypt options _ => options.input = standard

/-- The secret behind a stream. -/
inductive Secret
  | key (key : SessionKey)
  | password (password : Bytes)

/-- Reads the file that holds the secret. -/
def loadSecret (files : FileSystem) : KeySource → Except CommandFault Secret
  | .keyFile path =>
    match files.read path with
    | .error fault => .error (.io (.file fault))
    | .ok contents => (KeyFile.parse contents).map .key
  | .passwordFile path =>
    match files.read path with
    | .error fault => .error (.io (.file fault))
    | .ok contents => (PasswordFile.parse contents).map .password

/-- **The standard input:** bytes that come in, or the file that it was redirected from. -/
inductive Stdin
  | stream (bytes : Bytes)
  | redirected (path : String)

/-- **An open input.** -/
inductive Input
  | stream (bytes : Bytes)
  | node (node : Node)

/-- What an input holds as the files are. -/
def Input.source (files : FileSystem) : Input → Source
  | stream bytes => .ofBytes bytes
  | node found => files.source found

/-- What the standard input is. -/
def Stdin.input (files : FileSystem) : Stdin → Except FileFault Input
  | stream bytes => .ok (.stream bytes)
  | redirected path => (files.openNode path).map .node

/-- Opens an input. -/
def openInput (files : FileSystem) (path : String) (stdin : Stdin) : Except FileFault Input :=
  if path = standard then stdin.input files else (files.openNode path).map .node

/-- **An open output:** the standard output, or a file. -/
inductive Output
  | standard
  | file (id : Nat)

/-- Makes or empties an output. -/
def openOutput (files : FileSystem) (path : String) : Except FileFault (Output × FileSystem) :=
  if path = standard then .ok (.standard, files)
  else (files.create path).map fun made => (.file made.1, made.2)

/-- Makes the output for a new key, which must not be there. -/
def openNewOutput (files : FileSystem) (path : String) : Except FileFault (Output × FileSystem) :=
  if path = standard then .ok (.standard, files)
  else (files.createNew path).map fun made => (.file made.1, made.2)

/-- The bytes that went to the standard output, and the files, once an output took the given
bytes. -/
def Output.close (files : FileSystem) (bytes : Bytes) : Output → Bytes × FileSystem
  | standard => (bytes, files)
  | file id => ([], files.write id bytes)

/-- Opens the secret, the input and the output of a pipe, in this order. What the input holds is
what is left of it when the output is made. -/
def openPipe (files : FileSystem) (options : PipeOptions) (stdin : Stdin) :
    Except String (Secret × Source × Output × FileSystem) :=
  match loadSecret files options.key with
  | .error fault => .error fault.describe
  | .ok secret =>
    match openInput files options.input stdin with
    | .error fault => .error (IoFault.file fault).describe
    | .ok input =>
      match openOutput files options.output with
      | .error fault => .error (IoFault.file fault).describe
      | .ok (output, files) => .ok (secret, input.source files, output, files)

/-! ## The commands -/

variable {ρ : Type} [Entropy ρ]

/-- Writes a new key. -/
def runKeygen (files : FileSystem) (random : ρ) (path : String) : Report :=
  match openNewOutput files path with
  | .error fault => .failure files (IoFault.file fault).describe [] []
  | .ok (output, files) =>
    let (result, sink) := KeyFile.writeNew random {}
    let (written, files) := output.close files sink.contents
    match result with
    | .error fault => .failure files fault.describe written []
    | .ok () => { exitCode := 0, output := written, files, events := [.keyWritten path] }

/-- Encrypts. What was written before a failure stays. -/
def runEncrypt (files : FileSystem) (stdin : Stdin) (random : ρ) (options : PipeOptions)
    (chunkSize : Nat) (costs : Argon2.Costs) : Report :=
  match openPipe files options stdin with
  | .error fault => .failure files fault [] []
  | .ok (secret, source, output, files) =>
    let config : Config :=
      { rekeyInterval := options.rekeyInterval, maxChunkLen := UInt64.ofNat chunkSize }
    let ends : Ends := { source, sink := {} }
    let outcome := match secret with
      | .key key => Pipe.encrypt ends key random config chunkSize
      | .password password =>
        Pipe.encryptWithPassword ends password random costs config chunkSize
    let (written, files) := output.close files outcome.state.sink.contents
    match outcome.result with
    | .error fault => .failure files fault.describe written outcome.events
    | .ok epilogue =>
      { exitCode := 0, output := written, files
        events := outcome.events ++ [.encrypted epilogue.size.toNat epilogue.sha256] }

/-- What happens to the output of a failed decryption. -/
def discard (files : FileSystem) (path : String) : FileSystem × List Event :=
  if path = standard then (files, [.outputUntrusted])
  else
    match files.remove path with
    | .ok files => (files, [])
    | .error fault => (files, [.outputKept path fault])

/-- Decrypts. How the system carries out reads and writes, `transfer`, is left open: it may cut them
into any pieces, interrupt them, or fail. -/
def runDecrypt (files : FileSystem) (stdin : Stdin) (options : PipeOptions) (maxChunkSize : Nat)
    (transfer : Ends → Ends := id) : Report :=
  match openPipe files options stdin with
  | .error fault => .failure files fault [] []
  | .ok (secret, source, output, files) =>
    let config : Config :=
      { rekeyInterval := options.rekeyInterval, maxChunkLen := UInt64.ofNat maxChunkSize }
    let ends := transfer { source, sink := {} }
    let outcome := match secret with
      | .key key => Pipe.decrypt ends key config
      | .password password => Pipe.decryptWithPassword ends password config
    let (written, files) := output.close files outcome.state.sink.contents
    match outcome.result with
    | .error fault =>
      let (files, events) := discard files options.output
      .failure files fault.describe written (outcome.events ++ events)
    | .ok epilogue =>
      { exitCode := 0, output := written, files
        events := outcome.events ++ [.decrypted epilogue.size.toNat epilogue.sha256] }

/-- **Runs** a command. -/
def run (files : FileSystem) (stdin : Stdin) (random : ρ) : Command → Report
  | keygen output => runKeygen files random output
  | encrypt options chunkSize costs => runEncrypt files stdin random options chunkSize costs
  | decrypt options maxChunkSize => runDecrypt files stdin options maxChunkSize

end Command

/-! ## The program -/

/-- The name and the version of the program. -/
def versionLine : String := "sealstream 0.1.0\n"

/-- How the program is used. -/
def usage : String :=
  "\n".intercalate
    ["Encrypt and decrypt byte streams in authenticated chunks",
     "",
     "Usage: sealstream [--log-level LEVEL] COMMAND",
     "",
     "Commands:",
     "  keygen   Write a fresh hex-encoded session key",
     "  encrypt  Encrypt input into a sealed stream",
     "  decrypt  Verify and decrypt a sealed stream",
     ""]

/-- **The program:** what the arguments ask for is done. -/
def runProgram {ρ : Type} [Entropy ρ] (files : FileSystem) (stdin : Command.Stdin) (random : ρ)
    (arguments : List String) : Report × String :=
  match Arguments.parse arguments with
  | none => (.refused files, "off")
  | some .version => ({ exitCode := 0, output := Text.utf8 versionLine, files }, "off")
  | some .help => ({ exitCode := 0, output := Text.utf8 usage, files }, "off")
  | some (.run level command) => (command.run files stdin random, level)

end AeadStream
