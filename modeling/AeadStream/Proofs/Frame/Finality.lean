import AeadStream.Proofs.Frame.Wire
import AeadStream.Proofs.Stream.Finality

/-!
# Nothing follows the final frame

A writer whose stream ended may be called on, but its sink gets no byte more. With the end of a
stream on either side this makes finalization terminal.

* `WriterCall` — a writer's calls as data;
* `WriterCall.course_of_finalized` — behind the end nothing is written;
* `finalization_is_terminal` — for a sender, a receiver and a writer, whatever their calls are.
-/

namespace AeadStream.Frame

namespace Writer

variable {w : Writer}

/-- A stream that ended gives no chunk to write. -/
theorem writeChunk_of_finalized (h : w.stream.phase = .finalized) (data : Bytes) (tag : Tag) :
    w.writeChunk data tag = ⟨.error (.stream (.wrongPhase .finalized "push")), w, []⟩ := by
  rw [writeChunk, Stream.push_of_finalized h]

/-- Nor does it when bytes are written. -/
theorem write_of_finalized (h : w.stream.phase = .finalized) {data : Bytes} (hdata : data ≠ []) :
    w.write data = ⟨.error (.stream (.wrongPhase .finalized "push")), w, []⟩ := by
  rw [write, if_neg hdata]
  simp only [writeChunk_of_finalized h, Except.map]

end Writer

/-! ## A writer's calls -/

/-- **A call on a writer.** -/
inductive WriterCall
  | writeChunk (data : Bytes) (tag : Tag)
  | write (data : Bytes)
  | writeAll (data : Bytes)
  | flush
  | finish (trailer : Bytes)
deriving DecidableEq

namespace WriterCall

/-- Makes the call. How many bytes a single write took does not matter here. -/
def on (c : WriterCall) (w : Writer) : Outcome IoFault Writer Unit :=
  match c with
  | writeChunk data tag => w.writeChunk data tag
  | write data => (w.write data).map fun _ => ()
  | writeAll data => w.writeAll data
  | flush => w.flush
  | finish trailer => w.finish trailer

/-- The call is to write a final frame. -/
def IsFinal : WriterCall → Prop
  | writeChunk _ tag => tag = .final
  | finish _ => True
  | write _ | writeAll _ | flush => False

/-! ## Behind the end -/

variable {w : Writer} {c : WriterCall}

/-- No call writes anything behind the end. -/
theorem on_of_finalized (h : w.stream.phase = .finalized) (c : WriterCall) :
    (c.on w).state.stream = w.stream ∧ (c.on w).state.sink.contents = w.sink.contents := by
  cases c with
  | writeChunk data tag =>
    rw [on, Writer.writeChunk_of_finalized h]
    exact ⟨rfl, rfl⟩
  | write data =>
    by_cases hdata : data = []
    · rw [on, Writer.write, if_pos hdata]
      exact ⟨rfl, rfl⟩
    · rw [on, Writer.write_of_finalized h hdata]
      exact ⟨rfl, rfl⟩
  | writeAll data =>
    rw [on, Writer.writeAll]
    by_cases hdata : data = []
    · rw [dif_pos hdata]
      exact ⟨rfl, rfl⟩
    · rw [dif_neg hdata, Writer.write_of_finalized h hdata]
      exact ⟨rfl, rfl⟩
  | flush => exact ⟨rfl, Sink.contents_flush w.sink⟩
  | finish trailer =>
    rw [on, Writer.finish, Writer.writeChunk_of_finalized h]
    exact ⟨rfl, rfl⟩

/-- **Behind the end nothing is written,** whatever the calls are. -/
theorem course_of_finalized (calls : List WriterCall) :
    ∀ {w : Writer}, w.stream.phase = .finalized →
      (Course.state on w calls).sink.contents = w.sink.contents := by
  induction calls with
  | nil =>
    intro w _
    rfl
  | cons c cs ih =>
    intro w h
    obtain ⟨hstream, hcontents⟩ := on_of_finalized h c
    rw [Course.state_cons, ih (by rw [hstream, h]), hcontents]

/-- A final frame that was written ended the stream. -/
theorem finalized_of_isFinal (hfinal : c.IsFinal) (h : (c.on w).result = .ok ()) :
    (c.on w).state.stream.phase = .finalized := by
  cases c with
  | writeChunk data tag =>
    obtain rfl : tag = .final := hfinal
    rw [on, (Writer.gave_of_writeChunk h).stream]
    rfl
  | finish trailer =>
    rw [on, Writer.finish] at h ⊢
    cases hwrite : (w.writeChunk trailer .final).result with
    | error fault =>
      simp only [hwrite] at h
      cases h
    | ok _ =>
      -- the flush behind the final frame leaves the stream alone
      simp only [Outcome.state_after, Writer.flush, (Writer.gave_of_writeChunk hwrite).stream]
      rfl
  | write => cases hfinal
  | writeAll => cases hfinal
  | flush => cases hfinal

end WriterCall

/-- **A writer falls silent** in these calls once its stream ended, and each final frame that it
wrote ended it. -/
structure FallsSilent (first : Writer) (calls : List WriterCall) : Prop where
  ended : ∀ front c back, calls = front ++ c :: back → c.IsFinal →
    (c.on (Course.state WriterCall.on first front)).result = .ok () →
    (Course.state WriterCall.on first (front ++ [c])).stream.phase = .finalized
  silent : ∀ front back, calls = front ++ back →
    (Course.state WriterCall.on first front).stream.phase = .finalized →
    (Course.state WriterCall.on first calls).sink.contents =
      (Course.state WriterCall.on first front).sink.contents

/-- So does every writer. -/
theorem fallsSilent (first : Writer) (calls : List WriterCall) : FallsSilent first calls where
  ended := by
    intro front c back _ hfinal h
    rw [Course.state_append]
    exact WriterCall.finalized_of_isFinal hfinal h
  silent := by
    rintro front back rfl h
    rw [Course.state_append]
    exact WriterCall.course_of_finalized back h

/-! ## Finalization is terminal -/

/-- **Finalization is terminal.** Under each header, a sender's stream and a receiver's end in the
call in which the final chunk goes through, if they end, and for good: their keys are zeros from
then on, and all further calls are refused and change nothing. So the final chunk is the last one,
and a writer puts no byte behind its frame. -/
theorem finalization_is_terminal {ρ : Type} [Entropy ρ] {random : ρ} {header : Header}
    (hdraw : (Entropy.draw random 24).1 = .ok header) (key : SessionKey) (config : Config)
    (sent : List SenderCall) (received : List ReceiverCall) (sink : Sink)
    (written : List WriterCall) :
    ∃ sender receiver : Stream,
      (Stream.sender key random config).result = .ok (header, sender) ∧
      Stream.receiver key header.bytes config = .ok receiver ∧
      EndsForGood SenderCall.on SenderCall.through? SenderCall.refusal sender sent ∧
      EndsForGood ReceiverCall.on ReceiverCall.through? ReceiverCall.refusal receiver received ∧
      ∀ writer, (Writer.start sink key random config).result = .ok writer →
        FallsSilent writer written := by
  refine ⟨.fresh key header config, .fresh key header config, Stream.sender_eq_fresh hdraw _ _,
    Stream.receiver_eq_fresh _ _ _, ?_, ?_, ?_⟩
  · exact SenderCall.conduct.endsForGood rfl sent
  · exact ReceiverCall.conduct.endsForGood rfl received
  · intro writer _
    exact fallsSilent writer written

/-- A tape of zeros gives a header; each side is called on behind its final chunk, and the writer
behind its final frame. -/
theorem finalization_is_terminal_under_zeros :
    (Entropy.draw (Tape.mk (Octets.zero 24).bytes) 24).1 = .ok (Octets.zero 24) ∧
      ∃ sender receiver : Stream,
        (Stream.sender (.zero 32) (Tape.mk (Octets.zero 24).bytes) {}).result =
          .ok (.zero 24, sender) ∧
        Stream.receiver (.zero 32) (Octets.zero 24).bytes {} = .ok receiver ∧
        EndsForGood SenderCall.on SenderCall.through? SenderCall.refusal sender
          [.push [1] .message [], .finalize [2] [], .pushRaw [] 9 [], .rekey] ∧
        EndsForGood ReceiverCall.on ReceiverCall.through? ReceiverCall.refusal receiver
          [.pull ((Stream.fresh (.zero 32) (.zero 24) {}).chunk [1] .final []) [], .pull [] []] ∧
        ∀ writer,
          (Writer.start {} (.zero 32) (Tape.mk (Octets.zero 24).bytes) {}).result = .ok writer →
          FallsSilent writer [.writeChunk [1] .final, .writeAll [2], .finish []] :=
  ⟨rfl, finalization_is_terminal rfl _ _ _ _ _ _⟩

end AeadStream.Frame
