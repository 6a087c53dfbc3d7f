import AeadStream.Fault.Io

/-!
# Events

What the library reports while it works, for a log. An event is a value; how it is worded, and
which events a reader of the log wants to see, is decided here and nowhere else.
-/

namespace AeadStream

/-! ## Levels -/

/-- How important an event is. -/
inductive Level
  | error
  | warn
  | info
  | debug
  | trace
deriving DecidableEq

namespace Level

/-- The name of the level. -/
def name : Level → String
  | error => "ERROR"
  | warn => "WARN"
  | info => "INFO"
  | debug => "DEBUG"
  | trace => "TRACE"

/-- The number of levels that are at least as important. -/
def rank : Level → Nat
  | error => 1
  | warn => 2
  | info => 3
  | debug => 4
  | trace => 5

/-- The rank up to which events are shown under a setting, given by the name of a level in either
case or by its number. An empty setting shows errors; other texts name no level. -/
def threshold (setting : String) : Nat :=
  match setting.toLower with
  | "" => 1
  | "off" | "0" => 0
  | "error" | "1" => 1
  | "warn" | "2" => 2
  | "info" | "3" => 3
  | "debug" | "4" => 4
  | "trace" | "5" => 5
  | _ => 0

end Level

/-! ## Events -/

/-- **What is reported.** -/
inductive Event
  /-- a stream began, with these settings -/
  | streamBegun (ceiling : UInt32) (maxChunkLen : UInt64)
  /-- the subkey was replaced, and `epoch` is now the number of replacements -/
  | subkeyRotated (epoch : UInt64) (forced : Bool)
  /-- the final chunk went through -/
  | streamFinalized (epoch : UInt64) (counter : UInt32)
  /-- a chunk of this length was not authentic at this position -/
  | chunkRejected (epoch : UInt64) (counter : UInt32) (length : Nat)
  /-- a whole stream was written -/
  | streamEncrypted (size : Nat) (chunks : Nat)
  /-- a whole stream was read -/
  | streamDecrypted (size : Nat)
  /-- a key was derived from a password at these costs -/
  | keyDerived (memory passes lanes : UInt32)
  /-- a new key is in this file -/
  | keyWritten (path : String)
  /-- the command to encrypt is done -/
  | encrypted (size : Nat) (sha256 : String)
  /-- the command to decrypt is done -/
  | decrypted (size : Nat) (sha256 : String)
  /-- decryption failed after output may have been written -/
  | outputUntrusted
  /-- the output of a failed decryption is still there -/
  | outputKept (path : String) (fault : FileFault)
deriving DecidableEq

/-- The value of a field of an event. -/
inductive Field
  | text (value : String)
  | flag (value : Bool)
deriving DecidableEq

namespace Field

/-- A number as a field. -/
def number (n : Nat) : Field := text (toString n)

/-- The field in a line of the log. -/
def render : Field → String
  | text value => value
  | flag value => if value then "true" else "false"

end Field

namespace Event

/-- How important the event is. -/
def level : Event → Level
  | chunkRejected .. | outputUntrusted | outputKept .. => .warn
  | keyWritten .. | encrypted .. | decrypted .. => .info
  | _ => .debug

/-- The part of the program that reports it. -/
def target : Event → String
  | streamBegun .. | subkeyRotated .. | streamFinalized .. | chunkRejected .. =>
    "sealstream_core::stream"
  | streamEncrypted .. | streamDecrypted .. => "sealstream_cli::pipe"
  | keyDerived .. => "sealstream_cli::password"
  | _ => "sealstream"

/-- The wording. -/
def message : Event → String
  | streamBegun .. => "stream initialized"
  | subkeyRotated .. => "subkey rotated"
  | streamFinalized .. => "stream finalized"
  | chunkRejected .. => "chunk failed authentication"
  | streamEncrypted .. => "stream encrypted"
  | streamDecrypted .. => "stream decrypted"
  | keyDerived .. => "session key derived from password"
  | keyWritten .. => "key written"
  | encrypted .. => "encrypted"
  | decrypted .. => "decrypted"
  | outputUntrusted => "decryption failed; output written so far is not trustworthy"
  | outputKept .. => "could not remove partial output"

/-- The labelled values, in order. -/
def fields : Event → List (String × Field)
  | streamBegun ceiling maxChunkLen =>
    [("rekey_interval", .number ceiling.toNat), ("max_chunk_len", .number maxChunkLen.toNat)]
  | subkeyRotated epoch forced => [("epoch", .number epoch.toNat), ("forced", .flag forced)]
  | streamFinalized epoch counter =>
    [("epoch", .number epoch.toNat), ("counter", .number counter.toNat)]
  | chunkRejected epoch counter length =>
    [("epoch", .number epoch.toNat), ("counter", .number counter.toNat), ("len", .number length)]
  | streamEncrypted size chunks => [("size", .number size), ("chunks", .number chunks)]
  | streamDecrypted size => [("size", .number size)]
  | keyDerived memory passes lanes =>
    [("m_cost_kib", .number memory.toNat), ("t_cost", .number passes.toNat),
     ("p_cost", .number lanes.toNat)]
  | keyWritten path => [("path", .text path)]
  | encrypted size sha256 | decrypted size sha256 =>
    [("size", .number size), ("sha256", .text sha256)]
  | outputUntrusted => []
  | outputKept path fault =>
    [("path", .text path), ("error", .text (IoFault.file fault).message)]

/-- **A line of the log,** without its time. -/
def line (event : Event) : String :=
  let labelled := event.fields.map fun f => " " ++ f.1 ++ "=" ++ f.2.render
  event.level.name ++ " " ++ event.target ++ ": " ++ event.message ++ String.join labelled

end Event

end AeadStream
