import AeadStream.Fault.Stream

/-!
# Faults of reading and writing

Why bytes could not be read or written: the other end failed, the bytes ran out, a file could
not be opened, or the stream that the bytes belong to refused them.
-/

namespace AeadStream

/-- The kinds of fault that a caller may want to tell apart. -/
inductive IoKind
  | notFound
  | alreadyExists
  | isADirectory
  | notADirectory
  | nameTooLong
  | filesystemLoop
  | unexpectedEnd
  | writeZero
  | invalidInput
  | invalidData
  | other
deriving DecidableEq

/-- The name of the kind. -/
def IoKind.name : IoKind → String
  | notFound => "NotFound"
  | alreadyExists => "AlreadyExists"
  | isADirectory => "IsADirectory"
  | notADirectory => "NotADirectory"
  | nameTooLong => "InvalidFilename"
  | filesystemLoop => "FilesystemLoop"
  | unexpectedEnd => "UnexpectedEof"
  | writeZero => "WriteZero"
  | invalidInput => "InvalidInput"
  | invalidData => "InvalidData"
  | other => "Other"

/-- Why a file could not be opened or read. -/
inductive FileFault
  | notFound
  | alreadyExists
  | notADirectory
  | isADirectory
  | nameTooLong
  | tooManyLinks
deriving DecidableEq

namespace FileFault

/-- The system's number for the fault. -/
def code : FileFault → Nat
  | notFound => 2
  | alreadyExists => 17
  | notADirectory => 20
  | isADirectory => 21
  | nameTooLong => 36
  | tooManyLinks => 40

/-- The kind of the fault. -/
def kind : FileFault → IoKind
  | notFound => .notFound
  | alreadyExists => .alreadyExists
  | notADirectory => .notADirectory
  | isADirectory => .isADirectory
  | nameTooLong => .nameTooLong
  | tooManyLinks => .filesystemLoop

/-- The system's wording. -/
def message : FileFault → String
  | notFound => "No such file or directory"
  | alreadyExists => "File exists"
  | notADirectory => "Not a directory"
  | isADirectory => "Is a directory"
  | nameTooLong => "File name too long"
  | tooManyLinks => "Too many levels of symbolic links"

end FileFault

/-- **Why bytes could not be read or written.** -/
inductive IoFault
  /-- the bytes ran out inside a part of fixed length -/
  | endOfInput
  /-- the bytes ran out before the final chunk -/
  | truncated
  /-- there is no chunk left and none was the final one -/
  | noFinalChunk
  /-- the other end takes no more bytes -/
  | writeZero
  /-- chunks of no bytes at all were asked for -/
  | emptyChunks
  /-- the other end failed, in its own words -/
  | device (text : String)
  /-- a file could not be opened or read -/
  | file (fault : FileFault)
  /-- the stream refused -/
  | stream (fault : StreamFault)
deriving DecidableEq

namespace IoFault

/-- The kind of the fault. -/
def kind : IoFault → IoKind
  | endOfInput | truncated | noFinalChunk => .unexpectedEnd
  | writeZero => .writeZero
  | emptyChunks => .invalidInput
  | device _ => .other
  | file fault => fault.kind
  | stream fault =>
    match fault with
    | .noRandomness _ => .other
    | .keyLength .. | .tooLong .. => .invalidInput
    | _ => .invalidData

/-- The fault of the stream that lies behind, if one does. -/
def streamFault? : IoFault → Option StreamFault
  | stream fault => some fault
  | _ => none

/-- The wording for users. -/
def message : IoFault → String
  | endOfInput => "failed to fill whole buffer"
  | truncated => "stream truncated before final chunk"
  | noFinalChunk => "stream ended without final chunk"
  | writeZero => "failed to write whole buffer"
  | emptyChunks => "max_chunk_len must be at least 1 byte"
  | device text => text
  | file fault => s!"{fault.message} (os error {fault.code})"
  | stream fault => fault.message

/-- The wording for programmers. -/
def describe (fault : IoFault) : String :=
  match fault with
  | endOfInput | writeZero =>
    Text.record "Error" [("kind", fault.kind.name), ("message", Text.quoted fault.message)]
  | truncated | noFinalChunk | emptyChunks | device _ =>
    Text.record "Custom" [("kind", fault.kind.name), ("error", Text.quoted fault.message)]
  | file cause =>
    Text.record "Os"
      [("code", toString cause.code), ("kind", cause.kind.name),
       ("message", Text.quoted cause.message)]
  | stream cause => Text.record "Custom" [("kind", fault.kind.name), ("error", cause.describe)]

/-- Inside a stream, bytes that run out mean that it was cut short. -/
def insideStream (fault : IoFault) : IoFault :=
  if fault.kind = .unexpectedEnd then truncated else fault

end IoFault

end AeadStream
