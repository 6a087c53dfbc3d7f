import AeadStream.Proofs.Command.Secret

/-!
# Runs into a file

A command that writes to a file first reads the secret, then opens the input, and then makes the
file. What comes of it afterwards is what comes of the encryption or decryption under the secret,
and this is said here for both.

* `Opened`, `openPipe_into_file` — both ends of a pipe into a file;
* `runEncrypt_of_opened`, `runDecrypt_of_opened` — the runs behind that.
-/

namespace AeadStream.Command

variable {ρ : Type} [Entropy ρ] {files : FileSystem} {stdin : Stdin} {input : Input}
  {options : PipeOptions} {secret : Secret} {made : Nat × FileSystem} {epilogue : Epilogue}

/-! ## Opening both ends -/

/-- **A pipe into a file was opened:** the secret was read and the input opened before the file
was made. -/
structure Opened (files : FileSystem) (options : PipeOptions) (stdin : Stdin) (secret : Secret)
    (input : Input) (made : Nat × FileSystem) : Prop where
  secret : loadSecret files options.key = .ok secret
  input : openInput files options.input stdin = .ok input
  output : files.create options.output = .ok made

/-- An input in the file system was opened under some path. -/
theorem openNode_of_openInput {path : String} {node : Node}
    (h : openInput files path stdin = .ok (.node node)) :
    ∃ written, files.openNode written = .ok node := by
  have hmap : ∀ {path : String}, (files.openNode path).map Input.node = .ok (.node node) →
      files.openNode path = .ok node := by
    intro path hpath
    cases hopen : files.openNode path with
    | error fault =>
      rw [hopen] at hpath
      cases hpath
    | ok found =>
      rw [hopen] at hpath
      cases hpath
      rfl
  rw [openInput] at h
  split at h
  · cases stdin with
    | stream bytes => cases h
    | redirected path => exact ⟨path, hmap h⟩
  · exact ⟨path, hmap h⟩

/-- This is how a pipe into a file is opened. -/
theorem openPipe_into_file (hfile : options.output ≠ standard)
    {ends : Secret × Source × Output × FileSystem} :
    openPipe files options stdin = .ok ends ↔
      ∃ secret input made, ends = (secret, input.source made.2, .file made.1, made.2) ∧
        Opened files options stdin secret input made := by
  rw [openPipe]
  constructor
  · intro h
    split at h
    · cases h
    · next secret hsecret =>
      split at h
      · cases h
      · next input hinput =>
        rw [openOutput, if_neg hfile] at h
        cases hcreate : files.create options.output with
        | error fault =>
          rw [hcreate] at h
          cases h
        | ok made =>
          rw [hcreate] at h
          cases h
          exact ⟨secret, input, made, rfl, hsecret, hinput, hcreate⟩
  · rintro ⟨secret, input, made, rfl, hsecret, hinput, hcreate⟩
    simp only [hsecret, hinput, openOutput, if_neg hfile, hcreate]
    rfl

/-! ## Runs into a file -/

/-- **An encryption into a file** writes what it gave to the file that it made, and succeeds as it
does. -/
theorem runEncrypt_of_opened (hfile : options.output ≠ standard)
    (h : Opened files options stdin secret input made) (random : ρ) (costs : Argon2.Costs)
    (chunkSize : Nat) {outcome : Outcome CommandFault Ends Epilogue}
    (houtcome : secret.encrypt ⟨input.source made.2, {}⟩ random costs
      (Secret.sending options.rekeyInterval chunkSize) chunkSize = outcome) :
    (runEncrypt files stdin random options chunkSize costs).files =
        made.2.write made.1 outcome.state.sink.contents ∧
      ((runEncrypt files stdin random options chunkSize costs).exitCode = 0 ↔
        ∃ epilogue, outcome.result = .ok epilogue) := by
  rw [runEncrypt, (openPipe_into_file hfile).mpr ⟨secret, input, made, rfl, h⟩]
  -- both kinds of secret are treated alike from here on
  cases secret
  all_goals
    rw [Secret.encrypt] at houtcome
    dsimp only
    rw [← Secret.sending, houtcome]
    cases outcome.result with
    | error fault =>
      refine ⟨rfl, fun hexit => absurd hexit Nat.one_ne_zero, ?_⟩
      rintro ⟨epilogue, hresult⟩
      cases hresult
    | ok epilogue => exact ⟨rfl, fun _ => ⟨epilogue, rfl⟩, fun _ => rfl⟩

/-- **A decryption into a file** that succeeds writes what it gave to the file that it made. -/
theorem runDecrypt_of_opened (hfile : options.output ≠ standard)
    (h : Opened files options stdin secret input made) {maxChunkSize : Nat}
    (transfer : Ends → Ends)
    (hresult : (secret.decrypt (transfer ⟨input.source made.2, {}⟩)
      (Secret.sending options.rekeyInterval maxChunkSize)).result = .ok epilogue) :
    (runDecrypt files stdin options maxChunkSize transfer).exitCode = 0 ∧
      (runDecrypt files stdin options maxChunkSize transfer).files =
        made.2.write made.1 (secret.decrypt (transfer ⟨input.source made.2, {}⟩)
          (Secret.sending options.rekeyInterval maxChunkSize)).state.sink.contents := by
  rw [runDecrypt, (openPipe_into_file hfile).mpr ⟨secret, input, made, rfl, h⟩]
  cases secret
  all_goals
    rw [Secret.decrypt] at hresult ⊢
    dsimp only
    rw [← Secret.sending, hresult]
    exact ⟨rfl, rfl⟩

/-- One that fails discards the file with what it gave. -/
theorem runDecrypt_of_fault (hfile : options.output ≠ standard)
    (h : Opened files options stdin secret input made) {maxChunkSize : Nat}
    (transfer : Ends → Ends) {fault : CommandFault}
    (hresult : (secret.decrypt (transfer ⟨input.source made.2, {}⟩)
      (Secret.sending options.rekeyInterval maxChunkSize)).result = .error fault) :
    (runDecrypt files stdin options maxChunkSize transfer).exitCode = 1 ∧
      (runDecrypt files stdin options maxChunkSize transfer).files =
        (discard (made.2.write made.1 (secret.decrypt (transfer ⟨input.source made.2, {}⟩)
          (Secret.sending options.rekeyInterval maxChunkSize)).state.sink.contents)
          options.output).1 := by
  rw [runDecrypt, (openPipe_into_file hfile).mpr ⟨secret, input, made, rfl, h⟩]
  cases secret
  all_goals
    rw [Secret.decrypt] at hresult ⊢
    dsimp only
    rw [← Secret.sending, hresult]
    exact ⟨rfl, rfl⟩

end AeadStream.Command
