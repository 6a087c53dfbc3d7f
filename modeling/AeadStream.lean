import AeadStream.Bytes
import AeadStream.Bytes.Lemmas
import AeadStream.Sha256
import AeadStream.Hmac
import AeadStream.ChaCha20
import AeadStream.Poly1305
import AeadStream.Aead
import AeadStream.Text.Printable
import AeadStream.Text.Quoted
import AeadStream.Hex
import AeadStream.Fault.Cipher
import AeadStream.Fault.Stream
import AeadStream.Fault.Io
import AeadStream.Fault.Command
import AeadStream.Entropy
import AeadStream.KeySchedule
import AeadStream.Chunk
import AeadStream.Config
import AeadStream.Event
import AeadStream.Outcome
import AeadStream.Stream
import AeadStream.Blake2b
import AeadStream.Argon2.Block
import AeadStream.Argon2.Hash
import AeadStream.Source
import AeadStream.Sink
import AeadStream.Frame.Writer
import AeadStream.Frame.Reader
import AeadStream.Text.Utf8
import AeadStream.Text.Decimal
import AeadStream.Cbor.Head
import AeadStream.Cbor.Content
import AeadStream.Epilogue
import AeadStream.Text.Blank
import AeadStream.KeyFile
import AeadStream.Password
import AeadStream.Pipe
import AeadStream.Text.Number
import AeadStream.ChunkSize
import AeadStream.Tree
import AeadStream.FileSystem
import AeadStream.Command.Arguments
import AeadStream.Command.Run
import AeadStream.Main
import AeadStream.Proofs.Sealing
import AeadStream.Proofs.Course
import AeadStream.Proofs.Rounds
import AeadStream.Proofs.Stream.Step
import AeadStream.Proofs.Stream.Calls
import AeadStream.Proofs.Stream.Exactness
import AeadStream.Proofs.Stream.Lockstep
import AeadStream.Proofs.Stream.Rotations
import AeadStream.Proofs.Stream.Nonces
import AeadStream.Proofs.Stream.Finality
import AeadStream.Proofs.Stream.Secrecy
import AeadStream.Proofs.Stream.Trace
import AeadStream.Proofs.Text
import AeadStream.Proofs.Hex
import AeadStream.Proofs.Cbor
import AeadStream.Proofs.Epilogue
import AeadStream.Proofs.Source
import AeadStream.Proofs.Sink
import AeadStream.Proofs.Preamble
import AeadStream.Proofs.Preamble.Exactness
import AeadStream.Proofs.KeyFile
import AeadStream.Proofs.Tree
import AeadStream.Proofs.FileSystem
import AeadStream.Proofs.Frame.Limits
import AeadStream.Proofs.Frame.Wire
import AeadStream.Proofs.Frame.Canonical
import AeadStream.Proofs.Frame.RoundTrip
import AeadStream.Proofs.Frame.Leading
import AeadStream.Proofs.Frame.Cut
import AeadStream.Proofs.Frame.Finality
import AeadStream.Proofs.Frame.Reading
import AeadStream.Proofs.Frame.Ending
import AeadStream.Proofs.Frame.Draining
import AeadStream.Proofs.Frame.Faults
import AeadStream.Proofs.Frame.Refusals
import AeadStream.Proofs.Pipe.Pieces
import AeadStream.Proofs.Frame.Writing
import AeadStream.Proofs.Pipe.Decryption
import AeadStream.Proofs.Pipe.Soundness
import AeadStream.Proofs.Pipe.Verification
import AeadStream.Proofs.Pipe.Encryption
import AeadStream.Proofs.Pipe.RoundTrip
import AeadStream.Proofs.Epilogue.Format
import AeadStream.Proofs.Pipe.Secrecy
import AeadStream.Proofs.Pipe.Password
import AeadStream.Proofs.Pipe.Truncation
import AeadStream.Proofs.Pipe.Faults
import AeadStream.Proofs.Pipe.Ciphertext
import AeadStream.Proofs.Pipe.Summary
import AeadStream.Proofs.Frame.Emission
import AeadStream.Proofs.Frame.Lengths
import AeadStream.Proofs.Pipe.FirstLine
import AeadStream.Proofs.Pipe.Loops
import AeadStream.Proofs.Command.Opening
import AeadStream.Proofs.Command.InPlace
import AeadStream.Proofs.Command.Secret
import AeadStream.Proofs.Command.Verified
