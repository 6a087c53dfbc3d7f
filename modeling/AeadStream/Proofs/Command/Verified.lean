import AeadStream.Proofs.Command.InPlace
import AeadStream.Proofs.Pipe.Truncation
import AeadStream.Proofs.Pipe.Verification

/-!
# A decryption leaves only what it verified

A decryption writes plaintext to its output long before it knows whether the stream is whole, and it
can fail at every step on the way. Whatever happens, the output path is one of three things
afterwards: what it was, if the run failed before the output was made; gone, if it failed later; and
the path of all that the input held under the secret, if the run succeeded. One file was written,
the one that the output leads to, and all other files and names are as they were.

The file is written under its number but removed by its name. So where the output is a symbolic
link, or its file has another name, a run is seen at other paths than the output.

* `Secret.Holds` — what sealed bytes hold under a secret;
* `Faithful` — reads and writes that may be cut, interrupted or fail;
* `Leaves`, `leaves_of_runDecrypt` — what a decryption into a file leaves;
* `OthersUnchanged`, `Leaves.othersUnchanged` — what it leaves at paths that lead elsewhere;
* `decryption_leaves_only_verified` — the same for the program;
* `decryption_through_a_link_changes_its_target` — a run that is seen at another path.
-/

namespace AeadStream

/-! ## Sizes that are accepted -/

/-- A chosen size is within its bounds if the one it stands in for is. -/
theorem Arguments.chunkSize_bounds {values : Values} {name : String} {standard : Nat}
    (hleast : ChunkSize.least ≤ standard) (hgreatest : standard ≤ ChunkSize.greatest) :
    ChunkSize.least ≤ chunkSize values name standard ∧
      chunkSize values name standard ≤ ChunkSize.greatest := by
  rw [chunkSize]
  cases values.lookup name with
  | none => exact ⟨hleast, hgreatest⟩
  | some text =>
    rw [Option.bind_some]
    cases hparse : ChunkSize.parse text with
    | error fault => exact ⟨hleast, hgreatest⟩
    | ok size => exact ChunkSize.bounds_of_parse hparse

/-- So is the chunk size of a decryption that the values ask for. -/
theorem Arguments.bounds_of_command {name : String} {values : Values} {options : PipeOptions}
    {maxChunkSize : Nat} (h : command? name values = some (.decrypt options maxChunkSize)) :
    ChunkSize.least ≤ maxChunkSize ∧ maxChunkSize ≤ ChunkSize.greatest := by
  unfold command? at h
  split at h
  · cases h
  · obtain ⟨_, _, hencrypt⟩ := Option.map_eq_some_iff.mp h
    cases hencrypt
  · obtain ⟨_, _, hdecrypt⟩ := Option.map_eq_some_iff.mp h
    cases hdecrypt
    exact chunkSize_bounds (by decide) (Nat.le_refl _)
  · cases h

/-- So is that of a decryption that is asked for at all. -/
theorem Arguments.bounds_of_parse {arguments : List String} {level : String}
    {options : PipeOptions} {maxChunkSize : Nat}
    (h : parse arguments = some (.run level (.decrypt options maxChunkSize))) :
    ChunkSize.least ≤ maxChunkSize ∧ maxChunkSize ≤ ChunkSize.greatest := by
  rw [parse] at h
  split at h
  any_goals cases h
  next outer name rest _ =>
    split at h
    · split at h <;> cases h
    · split at h
      · cases h
      · split at h
        any_goals cases h
        next values _ =>
          obtain ⟨command, hcommand, hrequest⟩ := Option.map_eq_some_iff.mp h
          cases hrequest
          exact bounds_of_command hcommand

namespace Command

open FileSystem

variable {ρ : Type} [Entropy ρ] {files : FileSystem} {stdin : Stdin} {options : PipeOptions}
  {maxChunkSize : Nat} {secret : Secret} {input : Input} {made : Nat × FileSystem}
  {transfer : Ends → Ends}

/-! ## What sealed bytes hold -/

namespace Secret

variable {config : Config} {ends : Ends} {bytes plaintext : Bytes} {epilogue : Epilogue}

/-- A size within the bounds is a limit above zero. -/
theorem sending_ne_zero {rekeyInterval : UInt32} {size : Nat} (hpos : 0 < size)
    (hgreatest : size ≤ ChunkSize.greatest) : (sending rekeyInterval size).maxChunkLen ≠ 0 := by
  intro hzero
  have hsize : (UInt64.ofNat size).toNat = 0 := congrArg UInt64.toNat hzero
  rw [ChunkSize.toNat_of_le hgreatest] at hsize
  exact absurd hsize (Nat.ne_of_gt hpos)

/-- **Bytes hold a plaintext** under a secret. -/
def Holds (secret : Secret) (config : Config) (bytes plaintext : Bytes) : Prop :=
  match secret with
  | .key k => Pipe.Holds k config bytes plaintext
  | .password p => Pipe.HoldsUnder p config bytes plaintext

/-- The empty bytes hold no plaintext. -/
theorem not_holds_nil (secret : Secret) : ¬secret.Holds config [] plaintext := by
  cases secret with
  | key k => exact Pipe.not_holds_nil
  | password p => exact Pipe.not_holdsUnder_nil

/-- **What a decryption accepted** was held by the bytes of its source, and the sink has it. -/
theorem holds_of_decrypt (hconfig : config.maxChunkLen ≠ 0)
    (h : (secret.decrypt ends config).result = .ok epilogue) :
    ∃ plaintext, secret.Holds config ends.source.rest plaintext ∧
      (secret.decrypt ends config).state.sink.contents = ends.sink.contents ++ plaintext := by
  cases secret with
  | key k => exact Pipe.holds_of_decrypt hconfig h
  | password p => exact Pipe.holdsUnder_of_decryptWithPassword hconfig h

end Secret

/-! ## What is left in the end -/

/-- **Reads and writes that may go any way,** but change neither what there is to read nor what was
written. They may be cut and interrupted, and fail. -/
structure Faithful (transfer : Ends → Ends) : Prop where
  rest : ∀ ends, (transfer ends).source.rest = ends.source.rest
  contents : ∀ ends, (transfer ends).sink.contents = ends.sink.contents

/-- **The output was not made,** for one of the ends could not be opened, or the secret not read. -/
inductive NotMade (files : FileSystem) (options : PipeOptions) (stdin : Stdin) : Prop
  | secret {fault : CommandFault} (h : loadSecret files options.key = .error fault)
  | input {fault : FileFault} (h : openInput files options.input stdin = .error fault)
  | output {fault : FileFault} (h : files.create options.output = .error fault)

/-- **What a decryption into a file leaves.** -/
inductive Leaves (files : FileSystem) (stdin : Stdin) (options : PipeOptions) (maxChunkSize : Nat)
    (report : Report) : Prop
  /-- it failed before the output was made, and nothing changed -/
  | untouched (hexit : report.exitCode = 1) (hnot : NotMade files options stdin)
      (hfiles : report.files = files)
  /-- it failed later, and the output path is gone; so is all that was written, if the path is that
  of the file and its only one -/
  | removed {name path : Path} {n : Nat} (hexit : report.exitCode = 1)
      (hleads : Leads files options.output path n)
      (hremoved : Removed files options.output name path n report.files)
      (hunnamed : name = path → (∀ q, q ≠ path → files.find? q ≠ some (.file n)) →
        ∀ q, report.files.find? q ≠ some (.file n))
  /-- it succeeded, and the output has what the input held -/
  | verified {path : Path} {n : Nat} {secret : Secret} {input plaintext : Bytes}
      (hexit : report.exitCode = 0) (hleads : Leads files options.output path n)
      (hstored : Stored files path n plaintext report.files)
      (hsecret : loadSecret files options.key = .ok secret)
      (hinput : inputContents files options.input stdin = .ok input)
      (hholds : secret.Holds (Secret.sending options.rekeyInterval maxChunkSize) input plaintext)
      (hread : report.files.read options.output = .ok plaintext)

/-- A pipe into a file that is not opened did not make it. -/
theorem notMade_of_openPipe {fault : String} (hfile : options.output ≠ standard)
    (h : openPipe files options stdin = .error fault) : NotMade files options stdin := by
  rw [openPipe] at h
  split at h
  · next hsecret => exact .secret hsecret
  · split at h
    · next hinput => exact .input hinput
    · rw [openOutput, if_neg hfile] at h
      cases hcreate : files.create options.output with
      | error fault => exact .output hcreate
      | ok made =>
        rw [hcreate] at h
        cases h

/-- One that is opened did make it. -/
theorem Opened.not_notMade (h : Opened files options stdin secret input made) :
    ¬NotMade files options stdin := by
  rintro (hsecret | hinput | houtput)
  · cases h.secret.symm.trans hsecret
  · cases h.input.symm.trans hinput
  · cases h.output.symm.trans houtput

/-- A decryption that fails once the file was made removes it. -/
theorem leaves_of_fault (hfile : options.output ≠ standard)
    (h : Opened files options stdin secret input made) {fault : CommandFault}
    (hresult : (secret.decrypt (transfer ⟨input.source made.2, {}⟩)
      (Secret.sending options.rekeyInterval maxChunkSize)).result = .error fault) :
    Leaves files stdin options maxChunkSize
      (runDecrypt files stdin options maxChunkSize transfer) := by
  obtain ⟨hexit, hfiles⟩ := runDecrypt_of_fault hfile h transfer hresult
  obtain ⟨path, hleads, hstored⟩ := stored_of_create h.output
  obtain ⟨name, left, hremove, hremoved⟩ := hleads.remove (hstored.write
    (secret.decrypt (transfer ⟨input.source made.2, {}⟩)
      (Secret.sending options.rekeyInterval maxChunkSize)).state.sink.contents)
  rw [discard, if_neg hfile, hremove] at hfiles
  dsimp only at hfiles
  rw [← hfiles] at hremoved
  refine .removed hexit hleads hremoved ?_
  rintro rfl honly
  exact hremoved.unnamed honly

/-- One that succeeds leaves what the input held. -/
theorem leaves_of_success (hfile : options.output ≠ standard) (htransfer : Faithful transfer)
    (hconfig : (Secret.sending options.rekeyInterval maxChunkSize).maxChunkLen ≠ 0)
    (h : Opened files options stdin secret input made) {epilogue : Epilogue}
    (hresult : (secret.decrypt (transfer ⟨input.source made.2, {}⟩)
      (Secret.sending options.rekeyInterval maxChunkSize)).result = .ok epilogue) :
    Leaves files stdin options maxChunkSize
      (runDecrypt files stdin options maxChunkSize transfer) := by
  obtain ⟨hexit, hfiles⟩ := runDecrypt_of_opened hfile h transfer hresult
  obtain ⟨plaintext, hholds, hcontents⟩ := Secret.holds_of_decrypt hconfig hresult
  rw [htransfer.rest] at hholds
  rw [hcontents, htransfer.contents] at hfiles
  obtain ⟨path, hleads, hmade⟩ := stored_of_create h.output
  have hstored : Stored files path made.1 plaintext
      (runDecrypt files stdin options maxChunkSize transfer).files := by
    rw [hfiles]
    exact hmade.write plaintext
  cases left_of_opened h with
  | whole hplace hinput hsource =>
    rw [hsource] at hholds
    exact .verified hexit hleads hstored h.secret hinput hholds (hleads.openNode hstored).2
  | emptied hplace hinput hsource =>
    rw [hsource] at hholds
    exact absurd hholds secret.not_holds_nil
  | directory hsource =>
    rw [hsource] at hholds
    exact absurd hholds secret.not_holds_nil

/-- **A decryption into a file** leaves it as it was, removes it, or leaves what it verified. -/
theorem leaves_of_runDecrypt (hfile : options.output ≠ standard) (htransfer : Faithful transfer)
    (hconfig : (Secret.sending options.rekeyInterval maxChunkSize).maxChunkLen ≠ 0) :
    Leaves files stdin options maxChunkSize
      (runDecrypt files stdin options maxChunkSize transfer) := by
  cases hopen : openPipe files options stdin with
  | error fault =>
    have hreport : runDecrypt files stdin options maxChunkSize transfer =
        .failure files fault [] [] := by
      rw [runDecrypt, hopen]
    rw [hreport]
    exact .untouched rfl (notMade_of_openPipe hfile hopen) rfl
  | ok ends =>
    obtain ⟨secret, input, made, -, hopened⟩ := (openPipe_into_file hfile).mp hopen
    cases hresult : (secret.decrypt (transfer ⟨input.source made.2, {}⟩)
        (Secret.sending options.rekeyInterval maxChunkSize)).result with
    | error fault => exact leaves_of_fault hfile hopened hresult
    | ok epilogue => exact leaves_of_success hfile htransfer hconfig hopened hresult

/-- **Other paths are unchanged:** all that led to a directory, or to another file than the one that
is made or emptied at the output, are opened and read as before. -/
def OthersUnchanged (files : FileSystem) (output : String) (files' : FileSystem) : Prop :=
  ∀ other node, files.openNode other = .ok node →
    (∀ path n, Leads files output path n → node ≠ .file n) →
    files'.openNode other = .ok node ∧ files'.read other = files.read other

/-- They are in each of these cases. -/
theorem Leaves.othersUnchanged {report : Report}
    (h : Leaves files stdin options maxChunkSize report) :
    OthersUnchanged files options.output report.files := by
  intro other node hopen helsewhere
  cases h with
  | untouched _ _ hfiles =>
    rw [hfiles]
    exact ⟨hopen, rfl⟩
  | removed _ hleads hremoved =>
    have hnode := helsewhere _ _ hleads
    have hopen' := hremoved.elsewhere other node hopen hnode
    exact ⟨hopen', read_of_openNode hopen hopen' hnode hremoved.files⟩
  | verified _ hleads hstored =>
    have hnode := helsewhere _ _ hleads
    exact ⟨hstored.openNode hopen, hstored.read_of_ne hopen hnode⟩

/-- **A decryption leaves only what it verified.** Arguments that are refused change nothing. For
all others that ask for a decryption into a file, the program does what `runDecrypt` does, and
however reads and writes go, one of three things is left: the files as they were, if the secret
could not be read or one of the ends not opened; the output path gone, if anything failed later; and
under the output path the plaintext that the input held under the secret, if there was no failure.
In each case all files but the one that the output leads to are what they were, and all names but
that file's and the output's own; so all paths that led elsewhere are unchanged. -/
theorem decryption_leaves_only_verified (files : FileSystem) (stdin : Stdin) (random : ρ)
    (arguments : List String) (htransfer : Faithful transfer) :
    (Arguments.parse arguments = none →
      (runProgram files stdin random arguments).1.exitCode = 2 ∧
        (runProgram files stdin random arguments).1.files = files) ∧
    ∀ level options maxChunkSize,
      Arguments.parse arguments = some (.run level (.decrypt options maxChunkSize)) →
      options.output ≠ standard →
        (runProgram files stdin random arguments).1 =
            runDecrypt files stdin options maxChunkSize ∧
          Leaves files stdin options maxChunkSize
            (runDecrypt files stdin options maxChunkSize transfer) ∧
          OthersUnchanged files options.output
            (runDecrypt files stdin options maxChunkSize transfer).files := by
  refine ⟨?_, ?_⟩
  · intro hparse
    rw [runProgram, hparse]
    exact ⟨rfl, rfl⟩
  · intro level options maxChunkSize hparse hfile
    obtain ⟨hleast, hgreatest⟩ := Arguments.bounds_of_parse hparse
    have hconfig : (Secret.sending options.rekeyInterval maxChunkSize).maxChunkLen ≠ 0 :=
      Secret.sending_ne_zero (lt_of_lt_of_le (by decide) hleast) hgreatest
    have hleaves : Leaves files stdin options maxChunkSize
        (runDecrypt files stdin options maxChunkSize transfer) :=
      leaves_of_runDecrypt hfile htransfer hconfig
    refine ⟨?_, hleaves, hleaves.othersUnchanged⟩
    rw [runProgram, hparse]
    rfl

/-! ## One byte, read to the end and not -/

/-- A file with a key, one with these bytes, and one with another byte, to which there is a link. -/
def safe (bytes : Bytes) : FileSystem where
  entries := [(["k"], .file 0), (["a"], .file 1), (["b"], .file 2), (["l"], .link "b")]
  file n :=
    if n = 0 then { contents := List.replicate 64 48 }
    else if n = 1 then { contents := bytes }
    else { contents := [9] }

/-- The bytes are decrypted into a file. -/
def openSafe (output : String) : PipeOptions := ⟨.keyFile "k", "a", output, Config.maxRekeyInterval⟩

/-- The settings for that. -/
def safeConfig : Config := Secret.sending Config.maxRekeyInterval ChunkSize.greatest

/-- A stream of one byte. -/
def sealedByte : Bytes :=
  (Octets.zero 24).bytes ++ Frame.wire (.fresh (.zero 32) (.zero 24) safeConfig)
    [([1], .message), ((Epilogue.ofPlaintext [1]).encode, .final)]

/-- Its frames fit. -/
theorem allFit_sealedByte :
    Frame.AllFit (.fresh (.zero 32) (.zero 24) safeConfig)
      ([([1], .message)] ++ [((Epilogue.ofPlaintext [1]).encode, .final)]) := by
  have hshort := Epilogue.length_encode_ofPlaintext_le [1]
  exact Frame.allFit_whole rfl (by decide) (by decide)
    ⟨hshort.trans (by decide), lt_of_le_of_lt (Nat.add_le_add_right hshort _) (by decide)⟩

/-- The stream is accepted, and the byte is handed on. -/
theorem decrypt_sealedByte :
    (Pipe.decrypt ⟨.ofBytes sealedByte, {}⟩ (.zero 32) safeConfig).result =
        .ok (Epilogue.ofPlaintext [1]) ∧
      (Pipe.decrypt ⟨.ofBytes sealedByte, {}⟩ (.zero 32) safeConfig).state.sink.contents =
        [1] := by
  have hwhole : Frame.BeginsWithWhole (.zero 32) safeConfig
      (Ends.mk (.ofBytes sealedByte) {}).source.rest [([1], .message)]
      (Epilogue.ofPlaintext [1]).encode [] :=
    ⟨by decide, .zero 24, _, Frame.writes_iff.mpr ⟨by decide, allFit_sealedByte, rfl⟩,
      (List.append_nil _).symm⟩
  obtain ⟨hresult, hcontents, -⟩ :=
    Pipe.result_of_whole (Source.healthy_ofBytes _) Sink.healthy_empty hwhole
  exact ⟨hresult.trans (Pipe.check_ofPlaintext (by decide)), hcontents⟩

/-- So is the byte of the stream without its final frame, which then is found to be cut. -/
theorem decrypt_cutByte :
    ∃ fault, (Pipe.decrypt ⟨.ofBytes (sealedByte.take 46), {}⟩ (.zero 32) safeConfig).result =
        .error fault ∧
      (Pipe.decrypt ⟨.ofBytes (sealedByte.take 46), {}⟩ (.zero 32)
        safeConfig).state.sink.contents = [1] := by
  have hcut : 46 < sealedByte.length := by
    have hoverhead : Frame.lengthBytes + chunkOverhead = 21 := rfl
    rw [sealedByte, List.length_append, Octets.length_bytes, Frame.length_wire, hoverhead]
    simp only [List.length_cons]
    omega
  obtain ⟨fault, -, hfails⟩ := Pipe.decrypt_of_cut ⟨.ofBytes (sealedByte.take 46), {}⟩
    allFit_sealedByte (by decide) hcut Sink.healthy_empty
    ((Source.healthy_ofBytes _).delivers rfl)
  exact ⟨_, hfails.result, hfails.contents⟩

/-- The third file is under its own path. -/
theorem resolve_own (bytes : Bytes) :
    (safe bytes).resolve .making "b" = .ok (.file ["b"] 2) := rfl

/-- The link leads to it. -/
theorem resolve_link (bytes : Bytes) :
    (safe bytes).resolve .making "l" = .ok (.file ["b"] 2) := rfl

/-- The files once the third one has other bytes. -/
def safeWith (bytes later : Bytes) : FileSystem := ((safe bytes).write 2 []).write 2 later

/-- They are read under its path. -/
theorem read_safeWith (bytes later : Bytes) : (safeWith bytes later).read "b" = .ok later := rfl

section

variable {output : String} {bytes : Bytes}

/-- The key is read and the bytes are opened before that. -/
theorem opened_safe (houtput : (safe bytes).resolve .making output = .ok (.file ["b"] 2)) :
    Opened (safe bytes) (openSafe output) (.stream []) (.key (.zero 32)) (.node (.file 1))
      (2, (safe bytes).write 2 []) := by
  have hread : (safe bytes).read "k" = .ok (List.replicate 64 48) := rfl
  have hkey : KeyFile.parse (List.replicate 64 48) = .ok (.zero 32) := by rfl
  have hsecret : loadSecret (safe bytes) (.keyFile "k") = .ok (.key (.zero 32)) := by
    rw [loadSecret, hread]
    exact congrArg (Except.map Secret.key) hkey
  have hinput : openInput (safe bytes) "a" (.stream []) = .ok (.node (.file 1)) := rfl
  exact ⟨hsecret, hinput, create_of_file houtput⟩

/-- The stream of one byte is decrypted into that file. -/
theorem runDecrypt_safe (hfile : output ≠ standard)
    (houtput : (safe sealedByte).resolve .making output = .ok (.file ["b"] 2)) :
    (runDecrypt (safe sealedByte) (.stream []) (openSafe output) ChunkSize.greatest).exitCode = 0 ∧
      (runDecrypt (safe sealedByte) (.stream []) (openSafe output) ChunkSize.greatest).files =
        safeWith sealedByte [1] := by
  obtain ⟨hresult, hcontents⟩ := decrypt_sealedByte
  obtain ⟨hexit, hfiles⟩ := runDecrypt_of_opened hfile (opened_safe houtput) id hresult
  exact ⟨hexit, hfiles.trans (congrArg _ hcontents)⟩

/-- If it is cut, its byte is written to that file, too, and then the output is removed. -/
theorem runDecrypt_safe_of_cut (hfile : output ≠ standard)
    (houtput : (safe (sealedByte.take 46)).resolve .making output = .ok (.file ["b"] 2)) :
    (runDecrypt (safe (sealedByte.take 46)) (.stream []) (openSafe output)
        ChunkSize.greatest).exitCode = 1 ∧
      (runDecrypt (safe (sealedByte.take 46)) (.stream []) (openSafe output)
        ChunkSize.greatest).files = (discard (safeWith (sealedByte.take 46) [1]) output).1 := by
  obtain ⟨fault, hresult, hcontents⟩ := decrypt_cutByte
  obtain ⟨hexit, hfiles⟩ := runDecrypt_of_fault hfile (opened_safe houtput) id hresult
  refine ⟨hexit, hfiles.trans ?_⟩
  exact congrArg (fun later => (discard (safeWith (sealedByte.take 46) later) output).1) hcontents

end

/-- Reads fail at once. -/
def unreadable (ends : Ends) : Ends :=
  { ends with source := { ends.source with stop := some (0, .endOfInput) } }

/-- Then nothing is read. -/
theorem delivers_unreadable (bytes : Bytes) :
    (unreadable ⟨.ofBytes bytes, {}⟩).source.Delivers [] (some .endOfInput) :=
  ⟨List.not_mem_nil, nofun, .failed rfl rfl⟩

/-- If the stream of one byte is read to the end, the byte is in the file that was there, instead of
what was in it. If it cannot be read, that file is gone. -/
theorem decryption_leaves_one_byte_or_no_file :
    Faithful id ∧ Faithful unreadable ∧
      Arguments.parse ["decrypt", "-k", "k", "-i", "a", "-o", "b"] =
        some (.run "warn" (.decrypt (openSafe "b") ChunkSize.greatest)) ∧
      (openSafe "b").output ≠ standard ∧
      (runProgram (safe sealedByte) (.stream []) (Tape.mk [])
        ["decrypt", "-k", "k", "-i", "a", "-o", "b"]).1.exitCode = 0 ∧
      (runProgram (safe sealedByte) (.stream []) (Tape.mk [])
        ["decrypt", "-k", "k", "-i", "a", "-o", "b"]).1.files.read "b" = .ok [1] ∧
      (runDecrypt (safe sealedByte) (.stream []) (openSafe "b") ChunkSize.greatest
        unreadable).exitCode = 1 ∧
      (runDecrypt (safe sealedByte) (.stream []) (openSafe "b") ChunkSize.greatest
        unreadable).files.openNode "b" = .error .notFound := by
  have hid : Faithful id := ⟨fun _ => rfl, fun _ => rfl⟩
  have hunreadable : Faithful unreadable := ⟨fun _ => rfl, fun _ => rfl⟩
  have hparse : Arguments.parse ["decrypt", "-k", "k", "-i", "a", "-o", "b"] =
      some (.run "warn" (.decrypt (openSafe "b") ChunkSize.greatest)) := by decide +kernel
  have hfile : "b" ≠ standard := by decide
  -- with all reads as they are asked for
  obtain ⟨hrun, -⟩ := (decryption_leaves_only_verified (safe sealedByte) (.stream [])
    (Tape.mk []) ["decrypt", "-k", "k", "-i", "a", "-o", "b"] hid).2 _ _ _ hparse hfile
  obtain ⟨hexit, hfiles⟩ := runDecrypt_safe hfile (resolve_own sealedByte)
  have hread := read_safeWith sealedByte [1]
  rw [← hfiles] at hread
  rw [← hrun] at hexit hread
  -- with reads that fail
  obtain ⟨-, hleaves, -⟩ := (decryption_leaves_only_verified (safe sealedByte) (.stream [])
    (Tape.mk []) ["decrypt", "-k", "k", "-i", "a", "-o", "b"] hunreadable).2 _ _ _ hparse hfile
  have hopened := opened_safe (resolve_own sealedByte)
  obtain ⟨hfault, -⟩ :=
    Pipe.decrypt_short (delivers_unreadable sealedByte) (by decide) (.zero 32) safeConfig
  obtain ⟨hexit', -⟩ := runDecrypt_of_fault hfile hopened unreadable hfault
  refine ⟨hid, hunreadable, hparse, hfile, hexit, hread, hexit', ?_⟩
  cases hleaves with
  | untouched _ hnot => exact absurd hnot hopened.not_notMade
  | removed _ _ hremoved => exact hremoved.closed
  | verified hexit₀ => cases hexit'.symm.trans hexit₀

/-- **Through a link,** a run changes what is at another path than the output. If the stream of one
byte is read to the end, the byte is in the file that the link leads to. If it was cut, the link is
gone, but the byte, which was not verified, is there as well. -/
theorem decryption_through_a_link_changes_its_target :
    Arguments.parse ["decrypt", "-k", "k", "-i", "a", "-o", "l"] =
        some (.run "warn" (.decrypt (openSafe "l") ChunkSize.greatest)) ∧
      (openSafe "l").output ≠ standard ∧ (openSafe "l").output ≠ "b" ∧
      (safe sealedByte).read "b" = .ok [9] ∧
      (runProgram (safe sealedByte) (.stream []) (Tape.mk [])
        ["decrypt", "-k", "k", "-i", "a", "-o", "l"]).1.exitCode = 0 ∧
      (runProgram (safe sealedByte) (.stream []) (Tape.mk [])
        ["decrypt", "-k", "k", "-i", "a", "-o", "l"]).1.files.read "b" = .ok [1] ∧
      (safe (sealedByte.take 46)).read "b" = .ok [9] ∧
      (runProgram (safe (sealedByte.take 46)) (.stream []) (Tape.mk [])
        ["decrypt", "-k", "k", "-i", "a", "-o", "l"]).1.exitCode = 1 ∧
      (runProgram (safe (sealedByte.take 46)) (.stream []) (Tape.mk [])
        ["decrypt", "-k", "k", "-i", "a", "-o", "l"]).1.files.openNode "l" = .error .notFound ∧
      (runProgram (safe (sealedByte.take 46)) (.stream []) (Tape.mk [])
        ["decrypt", "-k", "k", "-i", "a", "-o", "l"]).1.files.read "b" = .ok [1] := by
  have hparse : Arguments.parse ["decrypt", "-k", "k", "-i", "a", "-o", "l"] =
      some (.run "warn" (.decrypt (openSafe "l") ChunkSize.greatest)) := by decide +kernel
  have hfile : "l" ≠ standard := by decide
  have hrun : ∀ files, (runProgram files (.stream []) (Tape.mk [])
      ["decrypt", "-k", "k", "-i", "a", "-o", "l"]).1 =
        runDecrypt files (.stream []) (openSafe "l") ChunkSize.greatest := by
    intro files
    rw [runProgram, hparse]
    rfl
  -- all but the third file is the same for all bytes of the second
  have hbefore : ∀ bytes, (safe bytes).read "b" = .ok [9] := by
    intro bytes
    rfl
  have hgone : ∀ bytes, (discard (safeWith bytes [1]) "l").1.openNode "l" = .error .notFound := by
    intro bytes
    rfl
  have hkept : ∀ bytes, (discard (safeWith bytes [1]) "l").1.read "b" = .ok [1] := by
    intro bytes
    rfl
  obtain ⟨hexit, hfiles⟩ := runDecrypt_safe hfile (resolve_link sealedByte)
  obtain ⟨hexit', hfiles'⟩ := runDecrypt_safe_of_cut hfile (resolve_link (sealedByte.take 46))
  rw [hrun, hrun, hfiles, hfiles']
  exact ⟨hparse, hfile, by decide, hbefore _, hexit, read_safeWith _ _, hbefore _, hexit', hgone _,
    hkept _⟩

end Command

end AeadStream
