import AeadStream.Fault.Io

/-!
# Faults of the commands

Why a key file, a password or a whole stream was refused.
-/

namespace AeadStream

/-- **Why a command failed.** -/
inductive CommandFault
  /-- reading or writing failed, or the stream was refused on the way -/
  | io (fault : IoFault)
  /-- the stream or one of its keys was refused -/
  | stream (fault : StreamFault)
  /-- the key file does not hold a key -/
  | keyFile (reason : String)
  /-- the password or the costs of deriving a key from it are unusable -/
  | password (reason : String)
  /-- the final chunk does not hold an epilogue -/
  | epilogue (reason : String)
  /-- the plaintext has another digest than the epilogue says -/
  | digestMismatch (expected actual : String)
  /-- the plaintext has another length than the epilogue says -/
  | sizeMismatch (expected actual : Nat)
deriving DecidableEq

namespace CommandFault

/-- The name of the kind of fault. -/
def name : CommandFault → String
  | io _ => "Io"
  | stream _ => "Stream"
  | keyFile _ => "KeyFile"
  | password _ => "Password"
  | epilogue _ => "Epilogue"
  | digestMismatch .. => "DigestMismatch"
  | sizeMismatch .. => "SizeMismatch"

/-- The wording for users. -/
def message : CommandFault → String
  | io fault => s!"i/o error: {fault.message}"
  | stream fault => s!"stream error: {fault.message}"
  | keyFile reason => s!"invalid key file: {reason}"
  | password reason => s!"password error: {reason}"
  | epilogue reason => s!"invalid epilogue: {reason}"
  | digestMismatch expected actual =>
    s!"plaintext digest mismatch: expected {expected}, got {actual}"
  | sizeMismatch expected actual =>
    s!"plaintext size mismatch: expected {expected} bytes, got {actual}"

/-- The wording for programmers. -/
def describe (fault : CommandFault) : String :=
  match fault with
  | io cause => Text.application fault.name [cause.describe]
  | stream cause => Text.application fault.name [cause.describe]
  | keyFile reason | password reason | epilogue reason =>
    Text.record fault.name [("reason", Text.quoted reason)]
  | digestMismatch expected actual =>
    Text.record fault.name
      [("expected", Text.quoted expected), ("actual", Text.quoted actual)]
  | sizeMismatch expected actual =>
    Text.record fault.name [("expected", toString expected), ("actual", toString actual)]

end CommandFault

end AeadStream
