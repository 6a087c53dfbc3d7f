import Mathlib.Data.List.Forall2
import AeadStream.Proofs.Stream.Calls

/-!
# What a stream shows

Two senders under any two keys, with the same settings, that are called in the same way with
plaintexts of the same lengths cannot be told apart by anything but the bytes that they emit: not
by a result, not by what is shown of the stream, and not by the log.

* `Outcome.Alike`, `Stream.Alike` — two outcomes and two streams that show the same;
* `Stream.Alike.push`, `SenderCall.Alike.on` — one call on either;
* `Stream.Alike.map_sight` — and any number of them.
-/

namespace AeadStream

/-! ## Outcomes alike -/

/-- **Outcomes alike:** the same fault, or values that are related to each other, with related
states behind them and the same reports. -/
inductive Outcome.Alike {ε σ α : Type} (values : α → α → Prop) (states : σ → σ → Prop) :
    Outcome ε σ α → Outcome ε σ α → Prop
  | failed {fault : ε} {s t : σ} {events : List Event} (hstates : states s t) :
      Alike values states ⟨.error fault, s, events⟩ ⟨.error fault, t, events⟩
  | gave {a b : α} {s t : σ} {events : List Event} (hvalues : values a b) (hstates : states s t) :
      Alike values states ⟨.ok a, s, events⟩ ⟨.ok b, t, events⟩

namespace Outcome.Alike

variable {ε σ α β : Type} {values : α → α → Prop} {states : σ → σ → Prop} {o p : Outcome ε σ α}

theorem state (h : o.Alike values states p) : states o.state p.state := by
  cases h with
  | failed hstates => exact hstates
  | gave _ hstates => exact hstates

theorem events (h : o.Alike values states p) : o.events = p.events := by
  cases h <;> rfl

/-- Of related values the same is shown. -/
theorem result_map {f : α → β} (h : o.Alike values states p)
    (hshow : ∀ {a b : α}, values a b → f a = f b) : o.result.map f = p.result.map f := by
  cases h with
  | failed => rfl
  | gave hvalues => exact congrArg Except.ok (hshow hvalues)

theorem map {values' : β → β → Prop} (f : α → β) (h : o.Alike values states p)
    (hmap : ∀ {a b : α}, values a b → values' (f a) (f b)) :
    (o.map f).Alike values' states (p.map f) := by
  cases h with
  | failed hstates => exact .failed hstates
  | gave hvalues hstates => exact .gave (hmap hvalues) hstates

theorem after (events : List Event) (h : o.Alike values states p) :
    (o.after events).Alike values states (p.after events) := by
  cases h with
  | failed hstates => exact .failed hstates
  | gave hvalues hstates => exact .gave hvalues hstates

end Outcome.Alike

/-! ## Streams alike -/

/-- What is reported of a sender that drew a header are its settings. -/
theorem Stream.events_sender {ρ : Type} [Entropy ρ] {random : ρ} {header : Header}
    (hdraw : (Entropy.draw random 24).1 = .ok header) (key : SessionKey) (config : Config) :
    (sender key random config).events = [.streamBegun config.ceiling config.maxChunkLen] := by
  rcases hrandom : Entropy.draw random 24 with ⟨drawn, random'⟩
  rw [hrandom] at hdraw
  obtain rfl : drawn = .ok header := hdraw
  rw [sender, StreamKeys.generate, hrandom]
  rfl

/-- **Streams alike:** everything but the keys is the same. -/
structure Stream.Alike (s t : Stream) : Prop where
  counter : s.counter = t.counter
  epoch : s.epoch = t.epoch
  phase : s.phase = t.phase
  ceiling : s.ceiling = t.ceiling
  maxChunkLen : s.maxChunkLen = t.maxChunkLen

namespace Stream.Alike

variable {s t : Stream}

/-- Streams begin alike if their settings are the same. -/
theorem initial (keys keys' : StreamKeys) (config : Config) :
    (Stream.initial keys config).Alike (.initial keys' config) :=
  ⟨rfl, rfl, rfl, rfl, rfl⟩

/-- So they do under any two headers, with the same report. -/
theorem fresh {ρ ρ' : Type} [Entropy ρ] [Entropy ρ'] {random : ρ} {random' : ρ'}
    {header header' : Header} (hdraw : (Entropy.draw random 24).1 = .ok header)
    (hdraw' : (Entropy.draw random' 24).1 = .ok header') (key key' : SessionKey)
    (config : Config) :
    (Stream.fresh key header config).Alike (.fresh key' header' config) ∧
      (sender key random config).events = (sender key' random' config).events :=
  ⟨initial _ _ config, by rw [events_sender hdraw, events_sender hdraw']⟩

/-- The number of epochs behind a rotation is the same. -/
theorem epoch_rotate (h : s.Alike t) : s.rotate.epoch = t.rotate.epoch := by
  simp only [Stream.rotate, h.epoch]

theorem rotate (h : s.Alike t) : s.rotate.Alike t.rotate :=
  ⟨rfl, h.epoch_rotate, h.phase, h.ceiling, h.maxChunkLen⟩

theorem rotateAndReport (h : s.Alike t) (forced : Bool) :
    (s.rotateAndReport forced).1.Alike (t.rotateAndReport forced).1 ∧
      (s.rotateAndReport forced).2 = (t.rotateAndReport forced).2 := by
  refine ⟨h.rotate, ?_⟩
  simp only [Stream.rotateAndReport, h.epoch_rotate]

/-- A chunk that went through on both is counted on both. -/
theorem counted (h : s.Alike t) :
    ({ s with counter := s.counter + 1 } : Stream).Alike { t with counter := t.counter + 1 } :=
  ⟨congrArg (· + 1) h.counter, h.epoch, h.phase, h.ceiling, h.maxChunkLen⟩

/-- A chunk that went through on both keeps them alike, with the same report. -/
theorem advance (h : s.Alike t) (tag : Tag) :
    (s.advance tag).1.Alike (t.advance tag).1 ∧ (s.advance tag).2 = (t.advance tag).2 := by
  have hcounted := h.counted
  have hdata : (s.advance .message).1.Alike (t.advance .message).1 ∧
      (s.advance .message).2 = (t.advance .message).2 := by
    -- the counter reaches its ceiling on both or on neither
    have hreached : s.ceiling ≤ s.counter + 1 ↔ t.ceiling ≤ t.counter + 1 := by
      rw [h.ceiling, h.counter]
    by_cases hle : t.ceiling ≤ t.counter + 1
    · simp only [Stream.advance, if_pos hle, if_pos (hreached.mpr hle)]
      exact hcounted.rotateAndReport true
    · simp only [Stream.advance, if_neg hle, if_neg (mt hreached.mp hle)]
      exact ⟨hcounted, trivial⟩
  cases tag with
  | message => exact hdata
  | push => exact hdata
  | rekey => exact hcounted.rotateAndReport false
  | final =>
    refine ⟨⟨hcounted.counter, h.epoch, rfl, h.ceiling, h.maxChunkLen⟩, ?_⟩
    simp only [Stream.advance, h.epoch, h.counter]

/-- **Sending plaintexts of the same length** goes the same way on both, with chunks of the same
length. -/
theorem push (h : s.Alike t) {plaintext plaintext' : Bytes}
    (hlen : plaintext.length = plaintext'.length) (tag : Tag) (aad aad' : Bytes) :
    (s.push plaintext tag aad).Alike (fun c c' => c.length = c'.length) Stream.Alike
      (t.push plaintext' tag aad') := by
  cases hphase : t.phase with
  | finalized =>
    rw [Stream.push, Stream.push, h.phase, hphase]
    exact .failed h
  | streaming =>
    obtain ⟨hstate, hevents⟩ := h.advance tag
    rw [Stream.push, Stream.push, h.phase, hphase]
    simp only [h.maxChunkLen, hlen, hevents]
    split
    · exact .failed h
    · exact .gave (by rw [length_sealChunk, length_sealChunk, hlen]) hstate

theorem rekey (h : s.Alike t) : s.rekey.Alike (fun _ _ => True) Stream.Alike t.rekey := by
  cases hphase : t.phase with
  | finalized =>
    rw [Stream.rekey, Stream.rekey, h.phase, hphase]
    exact .failed h
  | streaming =>
    obtain ⟨hstate, hevents⟩ := h.rotateAndReport false
    rw [Stream.rekey, Stream.rekey, h.phase, hphase]
    simp only [hevents]
    exact .gave trivial hstate

end Stream.Alike

/-! ## Calls alike -/

/-- **Calls alike:** the same call with the same tag, or the same byte for it, and a plaintext of
the same length. The associated data may be any. -/
inductive SenderCall.Alike : SenderCall → SenderCall → Prop
  | push {plaintext plaintext' : Bytes} (hlen : plaintext.length = plaintext'.length) (tag : Tag)
      (aad aad' : Bytes) : Alike (.push plaintext tag aad) (.push plaintext' tag aad')
  | pushRaw {plaintext plaintext' : Bytes} (hlen : plaintext.length = plaintext'.length)
      (raw : UInt8) (aad aad' : Bytes) :
      Alike (.pushRaw plaintext raw aad) (.pushRaw plaintext' raw aad')
  | finalize {plaintext plaintext' : Bytes} (hlen : plaintext.length = plaintext'.length)
      (aad aad' : Bytes) : Alike (.finalize plaintext aad) (.finalize plaintext' aad')
  | rekey : Alike .rekey .rekey

/-- **One call** on either of two streams that are alike. -/
theorem SenderCall.Alike.on {c c' : SenderCall} {s t : Stream} (hcall : c.Alike c')
    (h : s.Alike t) :
    (c.on s).Alike (fun a b => a.map List.length = b.map List.length) Stream.Alike (c'.on t) := by
  have hsome : ∀ {a b : Bytes}, a.length = b.length →
      (some a).map List.length = (some b).map List.length := congrArg some
  cases hcall with
  | push hlen tag aad aad' => exact (h.push hlen tag aad aad').map some hsome
  | finalize hlen aad aad' => exact (h.push hlen .final aad aad').map some hsome
  | rekey => exact h.rekey.map (fun _ => none) fun _ => rfl
  | pushRaw hlen raw aad aad' =>
    rw [SenderCall.on, SenderCall.on, Stream.pushRaw, Stream.pushRaw]
    cases Tag.ofByte raw with
    | error fault => exact .failed h
    | ok tag => exact (h.push hlen tag aad aad').map some hsome

/-! ## What is shown -/

/-- **What is shown** of a stream: its counter, its number of epochs and its phase, and its wording
for programmers. -/
structure Stream.Shown where
  counter : UInt32
  epoch : UInt64
  phase : Phase
  text : String
deriving DecidableEq

/-- What is shown of a sender. -/
def Stream.shown (s : Stream) : Shown := ⟨s.counter, s.epoch, s.phase, s.describe .sending⟩

/-- **What can be seen** of a call on a sender, but for the bytes that it emits: the length of the
chunk or the fault, what is shown of the stream behind the call, and what was reported. -/
structure SenderCall.Sight where
  result : Except StreamFault (Option Nat)
  shown : Stream.Shown
  events : List Event
deriving DecidableEq

/-- What can be seen of a call that had this outcome. -/
def SenderCall.sight (o : Outcome StreamFault Stream (Option Bytes)) : Sight :=
  ⟨o.result.map fun chunk => chunk.map List.length, o.state.shown, o.events⟩

/-- Of streams that are alike the same is shown. -/
theorem Stream.Alike.shown_eq {s t : Stream} (h : s.Alike t) : s.shown = t.shown := by
  simp only [shown, describe, h.counter, h.epoch, h.phase, h.ceiling, h.maxChunkLen]

/-- **Calls that are alike** cannot be told apart on streams that are. -/
theorem Stream.Alike.map_sight {calls calls' : List SenderCall}
    (hcalls : List.Forall₂ SenderCall.Alike calls calls') {s t : Stream} (h : s.Alike t) :
    (Course.outcomes SenderCall.on s calls).map SenderCall.sight =
      (Course.outcomes SenderCall.on t calls').map SenderCall.sight := by
  induction hcalls generalizing s t with
  | nil => rfl
  | @cons c c' calls calls' hcall _ ih =>
    have hon := hcall.on h
    have hsight : SenderCall.sight (c.on s) = SenderCall.sight (c'.on t) := by
      rw [SenderCall.sight, SenderCall.sight, hon.result_map id, hon.state.shown_eq, hon.events]
    rw [Course.outcomes_cons, Course.outcomes_cons, List.map_cons, List.map_cons, hsight,
      ih hon.state]

end AeadStream
