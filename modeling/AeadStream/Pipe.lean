import AeadStream.Epilogue
import AeadStream.Frame.Reader
import AeadStream.Password

/-!
# From plaintext to ciphertext and back

A whole plaintext is encrypted by cutting it into chunks, writing their frames, and summing it up
in the epilogue; decryption reads the frames back and checks the sum. Plaintext is handed on as
soon as its chunk went through, so after a fault the caller has to throw it away.
-/

namespace AeadStream

/-- **The two ends** of a pipe. -/
structure Ends where
  source : Source
  sink : Sink

namespace Pipe

/-! ## Encryption -/

/-- Writes what the source holds in chunks of `size` bytes, of which only the last may be
shorter. The pieces so far are kept, the latest first. -/
def writePieces (size : Nat) (source : Source) (w : Frame.Writer) (done : List Bytes) :
    Outcome IoFault (Source × Frame.Writer) (List Bytes) :=
  match _h : source.fill size with
  | (.error fault, source) => ⟨.error fault, (source, w), []⟩
  | (.ok [], source) => ⟨.ok done, (source, w), []⟩
  | (.ok (b :: bs), source) =>
    let written := w.writeChunk (b :: bs) .message
    match written.result with
    | .error fault => ⟨.error fault, (source, written.state), written.events⟩
    | .ok () =>
      if (b :: bs).length < size then
        ⟨.ok ((b :: bs) :: done), (source, written.state), written.events⟩
      else (writePieces size source written.state ((b :: bs) :: done)).after written.events
termination_by source.rest.length
decreasing_by
  rw [Source.fill_ok _h]
  simp only [List.length_append, List.length_cons]
  omega

/-- **Encryption** of everything that the source holds, in chunks of `chunkSize` bytes and at
least one. The number of chunks that is reported is the counter of the stream before the final
chunk. -/
def encrypt {ρ : Type} [Entropy ρ] (ends : Ends) (key : SessionKey) (random : ρ) (config : Config)
    (chunkSize : Nat) : Outcome CommandFault Ends Epilogue :=
  let started := Frame.Writer.start ends.sink key random config
  match started.result with
  | .error fault => ⟨.error (.io fault), { ends with sink := started.state }, started.events⟩
  | .ok writer =>
    let data := writePieces (max chunkSize 1) ends.source writer []
    let (source, writer) := data.state
    let events := started.events ++ data.events
    match data.result with
    | .error fault => ⟨.error (.io fault), ⟨source, writer.sink⟩, events⟩
    | .ok pieces =>
      let plaintext := pieces.reverse.flatten
      let epilogue := Epilogue.ofPlaintext plaintext
      let chunks := writer.stream.counter
      let finished := writer.finish epilogue.encode
      let ends := ⟨source, finished.state.sink⟩
      let events := events ++ finished.events
      match finished.result with
      | .error fault => ⟨.error (.io fault), ends, events⟩
      | .ok () =>
        ⟨.ok epilogue, ends, events ++ [.streamEncrypted plaintext.length chunks.toNat]⟩

/-- **Encryption under a password.** A preamble with a fresh salt comes before the stream. -/
def encryptWithPassword {ρ : Type} [Entropy ρ] (ends : Ends) (password : Bytes) (random : ρ)
    (costs : Argon2.Costs) (config : Config) (chunkSize : Nat) :
    Outcome CommandFault Ends Epilogue :=
  match Preamble.generate random costs with
  | (.error fault, _) => ⟨.error fault, ends, []⟩
  | (.ok preamble, random) =>
    match preamble.deriveKey password with
    | .error fault => ⟨.error fault, ends, []⟩
    | .ok key =>
      match ends.sink.writeAll preamble.encode with
      | (.error fault, sink) => ⟨.error (.io fault), { ends with sink }, preamble.derived⟩
      | (.ok (), sink) =>
        (encrypt { ends with sink } key random config chunkSize).after preamble.derived

/-! ## Decryption -/

/-- Reads chunks up to the final one and writes their plaintexts. The pieces so far are kept, the
latest first, and given together with the plaintext of the final chunk. -/
def readPieces (r : Frame.Reader) (sink : Sink) (done : List Bytes) :
    Outcome IoFault (Frame.Reader × Sink) (List Bytes × Bytes) :=
  let chunk := r.readChunk
  match _h : chunk.result with
  | .error fault => ⟨.error fault, (chunk.state, sink), chunk.events⟩
  | .ok none => ⟨.error .noFinalChunk, (chunk.state, sink), chunk.events⟩
  | .ok (some (trailer, .final)) => ⟨.ok (done, trailer), (chunk.state, sink), chunk.events⟩
  | .ok (some (plaintext, _)) =>
    match sink.writeAll plaintext with
    | (.error fault, sink) => ⟨.error fault, (chunk.state, sink), chunk.events⟩
    | (.ok (), sink) => (readPieces chunk.state sink (plaintext :: done)).after chunk.events
termination_by r.source.rest.length
decreasing_by
  have := Frame.Reader.readChunk_ok _h
  simp only [Frame.lengthBytes, chunkOverhead] at this
  omega

/-- **The check** of a plaintext against the epilogue in the final chunk: first its length, then
its digest. -/
def check (plaintext trailer : Bytes) : Except CommandFault Epilogue :=
  match Epilogue.decode trailer with
  | .error fault => .error (.epilogue fault.message)
  | .ok epilogue =>
    let actual := Hex.encode (Sha256.digest plaintext).bytes
    if epilogue.size.toNat ≠ plaintext.length then
      .error (.sizeMismatch epilogue.size.toNat plaintext.length)
    else if epilogue.sha256 ≠ actual then .error (.digestMismatch epilogue.sha256 actual)
    else .ok epilogue

/-- **Decryption** of the stream that the source begins with. -/
def decrypt (ends : Ends) (key : SessionKey) (config : Config) :
    Outcome CommandFault Ends Epilogue :=
  let started := Frame.Reader.start ends.source key config
  match started.result with
  | .error fault => ⟨.error (.io fault), { ends with source := started.state }, started.events⟩
  | .ok reader =>
    let data := readPieces reader ends.sink []
    let (reader, sink) := data.state
    let events := started.events ++ data.events
    match data.result with
    | .error fault => ⟨.error (.io fault), ⟨reader.source, sink⟩, events⟩
    | .ok (pieces, trailer) =>
      match sink.flush with
      | (.error fault, sink) => ⟨.error (.io fault), ⟨reader.source, sink⟩, events⟩
      | (.ok (), sink) =>
        let plaintext := pieces.reverse.flatten
        let ends := ⟨reader.source, sink⟩
        match check plaintext trailer with
        | .error fault => ⟨.error fault, ends, events⟩
        | .ok epilogue =>
          ⟨.ok epilogue, ends, events ++ [.streamDecrypted plaintext.length]⟩

/-- **Decryption under a password.** A wrong one shows in the first chunk. -/
def decryptWithPassword (ends : Ends) (password : Bytes) (config : Config) :
    Outcome CommandFault Ends Epilogue :=
  match Preamble.read ends.source with
  | (.error fault, source) => ⟨.error fault, { ends with source }, []⟩
  | (.ok preamble, source) =>
    match preamble.deriveKey password with
    | .error fault => ⟨.error fault, { ends with source }, []⟩
    | .ok key => (decrypt { ends with source } key config).after preamble.derived

end Pipe

end AeadStream
