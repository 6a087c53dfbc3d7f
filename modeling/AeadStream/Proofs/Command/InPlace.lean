import AeadStream.Proofs.Command.Opening
import AeadStream.Proofs.FileSystem

/-!
# What is encrypted in place is lost

The output of a command is made before anything is read from its input. If both lead to one file,
under whatever names, the input is emptied before it is read, the encryption of nothing succeeds,
and decryption gives nothing back. If they do not, a successful encryption into a file gives back
what the input held. That takes the secret, which is still where it was read from, unless the output
leads to its file: then the ciphertext is there instead, and the secret has to be known from
elsewhere.

* `InPlace`, `Left`, `left_of_opened` — what is left to read once the output is made;
* `OverSecret`, `secret_of_stored` — what is left of the secret once the output is written;
* `GivesBack` — what later decryptions of a file give;
* `encryption_gives_back_unless_in_place` — there and back.
-/

namespace AeadStream.Command

open FileSystem

variable {ρ : Type} [Entropy ρ] {files files' : FileSystem} {stdin : Stdin} {input : Input}
  {random : ρ} {options : PipeOptions} {costs : Argon2.Costs} {chunkSize n : Nat} {secret : Secret}
  {path : Path} {source : Source} {made : Nat × FileSystem} {written restored : Bytes}

/-! ## What is left to read -/

/-- What an open input holds. -/
def Input.contents (files : FileSystem) : Input → Except FileFault Bytes
  | stream bytes => .ok bytes
  | node (.file n) => .ok (files.file n).contents
  | node .directory => .error .isADirectory

/-- What an input holds. -/
def inputContents (files : FileSystem) (path : String) (stdin : Stdin) : Except FileFault Bytes :=
  match openInput files path stdin with
  | .error fault => .error fault
  | .ok input => input.contents files

/-- **In place:** input and output lead to one file. -/
def InPlace (files : FileSystem) (options : PipeOptions) (stdin : Stdin) : Prop :=
  ∃ n, openInput files options.input stdin = .ok (.node (.file n)) ∧
    files.openNode options.output = .ok (.file n)

/-- **What is left to read** of an input once the output is made. -/
inductive Left (files : FileSystem) (options : PipeOptions) (stdin : Stdin) (source : Source) : Prop
  /-- all that it holds -/
  | whole {plaintext : Bytes} (hplace : ¬InPlace files options stdin)
      (hcontents : inputContents files options.input stdin = .ok plaintext)
      (hsource : source = .ofBytes plaintext)
  /-- nothing, for the output was made over it -/
  | emptied {plaintext : Bytes} (hplace : InPlace files options stdin)
      (hcontents : inputContents files options.input stdin = .ok plaintext)
      (hsource : source = .ofBytes [])
  /-- nothing was there to read -/
  | directory (hsource : source = unreadable)

/-- One of these is left for a pipe into a file. -/
theorem left_of_opened (h : Opened files options stdin secret input made) :
    Left files options stdin (input.source made.2) := by
  obtain ⟨path, hleads, hstored⟩ := stored_of_create h.output
  have hcontents : inputContents files options.input stdin = input.contents files := by
    rw [inputContents, h.input]
  cases input with
  | stream bytes =>
    refine .whole ?_ hcontents rfl
    rintro ⟨n, hopen, -⟩
    cases h.input.symm.trans hopen
  | node node =>
    cases node with
    | directory => exact .directory rfl
    | file n =>
      by_cases hn : n = made.1
      · subst hn
        obtain ⟨written, hopen⟩ := openNode_of_openInput h.input
        refine .emptied ⟨_, h.input, hleads.there_of_openNode hopen⟩ hcontents ?_
        rw [Input.source, FileSystem.source, hstored.contents]
      · refine .whole ?_ hcontents ?_
        · rintro ⟨n', hopen, houtput⟩
          cases h.input.symm.trans hopen
          cases hleads.eq_of_openNode hstored houtput
          exact hn rfl
        · have hnode : Node.file n ≠ .file made.1 := fun heq => hn (Node.file.inj heq)
          rw [Input.source, hstored.source hnode]
          rfl

/-! ## What is left of the secret -/

/-- **Over the secret:** the output leads to the file that the secret is read from. -/
def OverSecret (files : FileSystem) (options : PipeOptions) : Prop :=
  ∃ n, files.openNode options.key.path = .ok (.file n) ∧
    files.openNode options.output = .ok (.file n)

/-- A secret that was loaded was read from a file. -/
theorem file_of_loadSecret {key : KeySource} (h : loadSecret files key = .ok secret) :
    ∃ n, files.openNode key.path = .ok (.file n) := by
  have hread : ∃ contents, files.read key.path = .ok contents := by
    cases key with
    | keyFile path =>
      rw [loadSecret] at h
      split at h
      · cases h
      · next contents hread => exact ⟨contents, hread⟩
    | passwordFile path =>
      rw [loadSecret] at h
      split at h
      · cases h
      · next contents hread => exact ⟨contents, hread⟩
  obtain ⟨contents, hread⟩ := hread
  rw [FileSystem.read] at hread
  split at hread
  · cases hread
  · next n hopen => exact ⟨n, hopen⟩
  · cases hread

/-- The same secret is loaded if the same is read. -/
theorem loadSecret_of_read {key : KeySource} (h : files'.read key.path = files.read key.path) :
    loadSecret files' key = loadSecret files key := by
  cases key with
  | keyFile path =>
    have hpath : files'.read path = files.read path := h
    rw [loadSecret, loadSecret, hpath]
  | passwordFile path =>
    have hpath : files'.read path = files.read path := h
    rw [loadSecret, loadSecret, hpath]

/-- **The secret is still there** once the output is written, unless it was written over
the secret. -/
theorem secret_of_stored (hsecret : loadSecret files options.key = .ok secret)
    (hleads : Leads files options.output path n) (hstored : Stored files path n written files') :
    (¬OverSecret files options → loadSecret files' options.key = .ok secret) ∧
      (OverSecret files options → files'.read options.key.path = .ok written) := by
  obtain ⟨there, hopen⟩ := file_of_loadSecret hsecret
  constructor
  · intro hover
    have hother : Node.file there ≠ .file n := by
      intro heq
      cases heq
      exact hover ⟨n, hopen, hleads.there_of_openNode hopen⟩
    rw [loadSecret_of_read (hstored.read_of_ne hopen hother), hsecret]
  · rintro ⟨there, hopen, houtput⟩
    cases hleads.eq_of_openNode hstored houtput
    exact hstored.read_self hopen

/-! ## What comes back -/

/-- **A ciphertext in a file gives back** these bytes: each decryption under the same secret, with
the chunks of an epoch as they were and the limit by default, into a file that is not there yet,
succeeds and leaves them in it. -/
def GivesBack (files : FileSystem) (ciphertext : String) (secret : Secret) (rekeyInterval : UInt32)
    (restored : Bytes) : Prop :=
  ∀ {ρ : Type} [Entropy ρ] (random : ρ) (stdin : Stdin) (key : KeySource) (fresh : String)
    (made : Nat × FileSystem), loadSecret files key = .ok secret → fresh ≠ standard →
    files.create fresh = .ok made → files.openNode fresh = .error .notFound →
    ((decrypt ⟨key, ciphertext, fresh, rekeyInterval⟩ ChunkSize.greatest).run files stdin
        random).exitCode = 0 ∧
      ((decrypt ⟨key, ciphertext, fresh, rekeyInterval⟩ ChunkSize.greatest).run files stdin
        random).files.read fresh = .ok restored

/-- A file with bytes that open as a plaintext gives it back. -/
theorem givesBack_of_opens {ciphertext : String} {rekeyInterval : UInt32}
    (hopen : files.openNode ciphertext = .ok (.file n)) (hname : ciphertext ≠ standard)
    (hwritten : (files.file n).contents = written)
    (hopens : secret.Opens rekeyInterval written restored) :
    GivesBack files ciphertext secret rekeyInterval restored := by
  intro ρ _ random stdin key fresh made hsecret hfresh hcreate hnew
  obtain ⟨path, hleads, hstored⟩ := stored_of_create hcreate
  have hopened : Opened files ⟨key, ciphertext, fresh, rekeyInterval⟩ stdin secret
      (.node (.file n)) made := by
    refine ⟨hsecret, ?_, hcreate⟩
    rw [openInput, if_neg hname, hopen]
    rfl
  -- the file with the ciphertext is not the one that is made
  have hother : Node.file n ≠ .file made.1 := by
    intro heq
    cases heq
    cases hnew.symm.trans (hleads.there_of_openNode hopen)
  have hsource : (Input.node (.file n)).source made.2 = .ofBytes written := by
    rw [Input.source, hstored.source hother, FileSystem.source, hwritten]
  obtain ⟨hresult, hcontents⟩ := hopens ⟨.ofBytes written, {}⟩ (Source.healthy_ofBytes _) rfl
    Sink.healthy_empty
  rw [← hsource] at hresult hcontents
  obtain ⟨hexit, hfiles⟩ := runDecrypt_of_opened hfresh hopened id hresult
  refine ⟨hexit, ?_⟩
  rw [id_eq] at hfiles
  rw [run, hfiles, hcontents]
  exact (hleads.openNode (hstored.write restored)).2

/-- What an encryption into a file read is given back, if it succeeded. -/
theorem givesBack_of_runEncrypt {text : String} {bytes : Bytes}
    (hparse : ChunkSize.parse text = .ok chunkSize) (hfile : options.output ≠ standard)
    (h : Opened files options stdin secret input made)
    (hsource : input.source made.2 = .ofBytes bytes)
    (hexit : (runEncrypt files stdin random options chunkSize costs).exitCode = 0)
    (hlt : bytes.length < UInt64.size) :
    GivesBack (runEncrypt files stdin random options chunkSize costs).files options.output secret
      options.rekeyInterval bytes := by
  obtain ⟨hfiles, hsucceeds⟩ := runEncrypt_of_opened hfile h random costs chunkSize rfl
  obtain ⟨epilogue, hresult⟩ := hsucceeds.mp hexit
  obtain ⟨path, hleads, hstored⟩ := stored_of_create h.output
  rw [hsource] at hfiles hresult
  obtain ⟨written, hwritten, hopens⟩ := Secret.comesBack hresult hparse hlt
    (Source.healthy_ofBytes bytes) rfl Sink.healthy_empty
  rw [hfiles, hwritten]
  exact givesBack_of_opens (hleads.openNode (hstored.write written)).1 hfile
    (hstored.write written).contents hopens

/-- **A successful encryption into a file gives back what the input held,** to every decryption
under the same secret into a fresh file, unless it was in place: then it gives back nothing. The
secret can be loaded again from where it was, unless the output leads to its file: then that holds
the ciphertext. -/
theorem encryption_gives_back_unless_in_place {text : String}
    (hparse : ChunkSize.parse text = .ok chunkSize) (hfile : options.output ≠ standard)
    (hexit : ((encrypt options chunkSize costs).run files stdin random).exitCode = 0) :
    ∃ plaintext secret ciphertext, inputContents files options.input stdin = .ok plaintext ∧
      loadSecret files options.key = .ok secret ∧
      ((encrypt options chunkSize costs).run files stdin random).files.read options.output =
        .ok ciphertext ∧
      (¬InPlace files options stdin → plaintext.length < UInt64.size →
        GivesBack ((encrypt options chunkSize costs).run files stdin random).files options.output
          secret options.rekeyInterval plaintext) ∧
      (InPlace files options stdin →
        GivesBack ((encrypt options chunkSize costs).run files stdin random).files options.output
          secret options.rekeyInterval []) ∧
      (¬OverSecret files options →
        loadSecret ((encrypt options chunkSize costs).run files stdin random).files options.key =
          .ok secret) ∧
      (OverSecret files options →
        ((encrypt options chunkSize costs).run files stdin random).files.read options.key.path =
          .ok ciphertext) := by
  rw [run] at hexit ⊢
  cases hopen : openPipe files options stdin with
  | error fault =>
    rw [runEncrypt, hopen] at hexit
    cases hexit
  | ok ends =>
    obtain ⟨secret, input, made, -, hopened⟩ := (openPipe_into_file hfile).mp hopen
    obtain ⟨hfiles, hsucceeds⟩ := runEncrypt_of_opened hfile hopened random costs chunkSize rfl
    obtain ⟨path, hleads, hmade⟩ := stored_of_create hopened.output
    have hstored := hmade.write (secret.encrypt ⟨input.source made.2, {}⟩ random costs
      (Secret.sending options.rekeyInterval chunkSize) chunkSize).state.sink.contents
    rw [← hfiles] at hstored
    have hkept := secret_of_stored hopened.secret hleads hstored
    have hread := (hleads.openNode hstored).2
    cases left_of_opened hopened with
    | whole hplace hcontents hsource =>
      exact ⟨_, secret, _, hcontents, hopened.secret, hread,
        fun _ hlt => givesBack_of_runEncrypt hparse hfile hopened hsource hexit hlt,
        fun h => absurd h hplace, hkept⟩
    | emptied hplace hcontents hsource =>
      exact ⟨_, secret, _, hcontents, hopened.secret, hread, fun h => absurd hplace h,
        fun _ => givesBack_of_runEncrypt hparse hfile hopened hsource hexit (by decide), hkept⟩
    | directory hsource =>
      obtain ⟨epilogue, hresult⟩ := hsucceeds.mp hexit
      obtain ⟨fault, hfailed⟩ := secret.encrypt_of_directory random costs
        (Secret.sending options.rekeyInterval chunkSize) chunkSize
      rw [hsource] at hresult
      cases hfailed.symm.trans hresult

/-! ## Beside the input and in place -/

/-- A file with a password, and one with three bytes. -/
def drawer : FileSystem where
  entries := [(["p"], .file 0), (["a"], .file 1)]
  file n := if n = 0 then { contents := [115] } else { contents := [1, 2, 3] }

/-- The three bytes are encrypted into a file. -/
def sealDrawer (output : String) : Report :=
  runEncrypt drawer (.stream []) (Tape.mk (Octets.zero 40).bytes)
    ⟨.passwordFile "p", "a", output, 5⟩ 256 ⟨8, 1, 1⟩

section

variable {output : String} {bytes : Bytes}

/-- The password is read and the bytes are opened before that. -/
theorem opened_drawer (hcreate : drawer.create output = .ok made) :
    Opened drawer ⟨.passwordFile "p", "a", output, 5⟩ (.stream []) (.password [115])
      (.node (.file 1)) made := by
  have hinput : openInput drawer "a" (.stream []) = .ok (.node (.file 1)) := rfl
  exact ⟨rfl, hinput, hcreate⟩

/-- It succeeds, and writes the file that it made. -/
theorem sealDrawer_succeeds (hfile : output ≠ standard)
    (hcreate : drawer.create output = .ok made)
    (hsource : made.2.source (.file 1) = .ofBytes bytes) :
    (sealDrawer output).exitCode = 0 ∧
      ∃ written, (sealDrawer output).files = made.2.write made.1 written := by
  obtain ⟨hfiles, hsucceeds⟩ := runEncrypt_of_opened hfile (opened_drawer hcreate)
    (Tape.mk (Octets.zero 40).bytes) ⟨8, 1, 1⟩ 256 rfl
  have hparse : ChunkSize.parse "256" = .ok 256 := rfl
  have hcheck : (⟨8, 1, 1⟩ : Argon2.Costs).check = .ok () := rfl
  have hsalt : Entropy.draw (Tape.mk (Octets.zero 40).bytes) 16 =
    (.ok (.zero 16), Tape.mk (Octets.zero 24).bytes) := rfl
  have hdraw : (Entropy.draw (Tape.mk (Octets.zero 24).bytes) 24).1 = .ok (Octets.zero 24) := rfl
  have hdelivers :
      (Ends.mk ((Input.node (.file 1)).source made.2) {}).source.Delivers bytes none := by
    rw [Input.source, hsource]
    exact (Source.healthy_ofBytes bytes).delivers rfl
  have hresult := Pipe.encryptWithPassword_succeeds (List.cons_ne_nil 115 []) (by decide) hcheck
    hsalt hdraw (Pipe.suits_of_parse hparse 5 bytes).1 hdelivers Sink.healthy_empty
  exact ⟨hsucceeds.mpr ⟨_, hresult⟩, _, hfiles⟩

end

/-- Encrypted into another file, the three bytes are given back, and the password is still there. -/
theorem encryption_gives_back_beside_the_input :
    ChunkSize.parse "256" = .ok 256 ∧ "b" ≠ standard ∧ (sealDrawer "b").exitCode = 0 ∧
      GivesBack (sealDrawer "b").files "b" (.password [115]) 5 [1, 2, 3] ∧
      loadSecret (sealDrawer "b").files (.passwordFile "p") = .ok (.password [115]) := by
  have hparse : ChunkSize.parse "256" = .ok 256 := rfl
  have hfile : "b" ≠ standard := by decide
  have hmissing : drawer.resolve .making "b" = .ok (.missing ["b"]) := rfl
  have hcreate := create_of_missing hmissing
  have hsource : (drawer.add ["b"] {}).2.source (.file 1) = .ofBytes [1, 2, 3] := rfl
  obtain ⟨hexit, -⟩ := sealDrawer_succeeds hfile hcreate hsource
  have hrun : ((encrypt ⟨.passwordFile "p", "a", "b", 5⟩ 256 ⟨8, 1, 1⟩).run drawer (.stream [])
    (Tape.mk (Octets.zero 40).bytes)).exitCode = 0 := hexit
  obtain ⟨plaintext, secret, ciphertext, hcontents, hsecret, -, hbeside, -, hkept, -⟩ :=
    encryption_gives_back_unless_in_place hparse hfile hrun
  have hthree : inputContents drawer "a" (.stream []) = .ok [1, 2, 3] := rfl
  have hpassword : loadSecret drawer (.passwordFile "p") = .ok (.password [115]) := rfl
  cases hcontents.symm.trans hthree
  cases hsecret.symm.trans hpassword
  -- the output leads to nothing, so neither to the input nor to the password
  have hb : drawer.openNode "b" = .error .notFound := rfl
  refine ⟨hparse, hfile, hexit, hbeside ?_ (by decide), hkept ?_⟩
  · rintro ⟨n, -, houtput⟩
    cases hb.symm.trans houtput
  · rintro ⟨n, -, houtput⟩
    cases hb.symm.trans houtput

/-- Encrypted into the file that they are in, the three bytes are lost: the encryption succeeds, the
decryption succeeds, and there is nothing in the file that it makes. -/
theorem encryption_in_place_gives_nothing_back :
    drawer.read "a" = .ok [1, 2, 3] ∧ (sealDrawer "a").exitCode = 0 ∧
      ((decrypt ⟨.passwordFile "p", "a", "b", 5⟩ ChunkSize.greatest).run (sealDrawer "a").files
        (.stream []) (Tape.mk [])).exitCode = 0 ∧
      ((decrypt ⟨.passwordFile "p", "a", "b", 5⟩ ChunkSize.greatest).run (sealDrawer "a").files
        (.stream []) (Tape.mk [])).files.read "b" = .ok [] := by
  have hread : drawer.read "a" = .ok [1, 2, 3] := rfl
  have hparse : ChunkSize.parse "256" = .ok 256 := rfl
  have hfile : "a" ≠ standard := by decide
  have hthere : drawer.resolve .making "a" = .ok (.file ["a"] 1) := rfl
  have hcreate := create_of_file hthere
  have hsource : (drawer.write 1 []).source (.file 1) = .ofBytes [] := rfl
  obtain ⟨hexit, written, hfiles⟩ := sealDrawer_succeeds hfile hcreate hsource
  have hback : GivesBack (sealDrawer "a").files "a" (.password [115]) 5 [] :=
    givesBack_of_runEncrypt hparse hfile (opened_drawer hcreate) hsource hexit (by decide)
  -- whatever was written, the password is still there and the other file is not yet
  have hsecret : loadSecret (sealDrawer "a").files (.passwordFile "p") = .ok (.password [115]) := by
    rw [hfiles]
    rfl
  have hmissing : (sealDrawer "a").files.resolve .making "b" = .ok (.missing ["b"]) := by
    rw [hfiles]
    rfl
  have hnew : (sealDrawer "a").files.openNode "b" = .error .notFound := by
    rw [hfiles]
    rfl
  exact ⟨hread, hexit, hback (Tape.mk []) (.stream []) (.passwordFile "p") "b" _ hsecret (by decide)
    (create_of_missing hmissing) hnew⟩

end AeadStream.Command
