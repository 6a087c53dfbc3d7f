import AeadStream.Fault.Command
import AeadStream.KeySchedule
import AeadStream.Sink
import AeadStream.Text.Blank

/-!
# Key files

A key file holds a session key in sixty-four hexadecimal digits. White space around them does
not count.
-/

namespace AeadStream.KeyFile

/-- A fault of a primitive, as the commands report it. -/
def ofCipher (fault : CipherFault) : CommandFault := .stream (.ofCipher fault)

/-- **The key** in a file with the given contents. -/
def parse (contents : Bytes) : Except CommandFault SessionKey :=
  match Text.ofUtf8? contents with
  | none => .error (.keyFile "not valid UTF-8")
  | some text =>
    match Hex.decode (Text.utf8 (String.ofList (Text.trim text.toList))) with
    | .error fault => .error (.keyFile fault.message)
    | .ok bytes => (SessionKey.ofBytes bytes).mapError ofCipher

/-- The contents of a file with the given key: its digits and a line end. -/
def contents (key : SessionKey) : Bytes := Text.utf8 (Hex.encode key.bytes ++ "\n")

/-- **A new key** is drawn and written. -/
def writeNew {ρ : Type} [Entropy ρ] (source : ρ) (sink : Sink) : Except CommandFault Unit × Sink :=
  match SessionKey.generate source with
  | (.error fault, _) => (.error (ofCipher fault), sink)
  | (.ok key, _) =>
    let (result, sink) := sink.writeAll (contents key)
    (result.mapError .io, sink)

end AeadStream.KeyFile
