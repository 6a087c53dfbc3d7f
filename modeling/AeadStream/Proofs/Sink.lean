import AeadStream.Sink

/-!
# Writing in any pieces

However a sink cuts what it is given into pieces, and however often it is interrupted, what was
written in full arrived, and a healthy sink takes all of it.

* `Sink.contents_of_writeAll` — what arrived, on any sink;
* `Sink.writeAll_within` — what arrived before a fault;
* `Sink.Healthy.writeAll` — that it arrives, on a healthy one.
-/

namespace AeadStream.Sink

variable {s s' : Sink} {bytes : Bytes}

/-! ## Any sink -/

/-- What a sink took of the bytes offered comes behind what was there. -/
theorem contents_of_take {n k : Nat} (h : s.take bytes n = (.took k, s')) :
    s'.contents = s.contents ++ bytes.take k := by
  rw [Sink.take] at h
  split at h
  · split at h
    · cases h
    · obtain ⟨hk, rfl⟩ := Prod.mk.inj h
      obtain rfl := Writing.took.inj hk
      simp
  · obtain ⟨hk, rfl⟩ := Prod.mk.inj h
    obtain rfl := Writing.took.inj hk
    simp only [contents, List.reverse_cons, List.flatten_append, List.flatten_cons,
      List.flatten_nil, List.append_nil]
    rw [List.length_take, ← List.take_eq_take_min]

/-- So it is after every call that took something. -/
theorem contents_of_write {k : Nat} (h : s.write bytes = (.took k, s')) :
    s'.contents = s.contents ++ bytes.take k := by
  rw [Sink.write] at h
  split at h
  · cases h
  · next limit turns hturns => exact contents_of_take (s := { s with turns }) h
  · exact contents_of_take h

/-- **What was written in full** comes behind what was there. -/
theorem contents_of_writeAll (h : s.writeAll bytes = (.ok (), s')) :
    s'.contents = s.contents ++ bytes := by
  fun_induction Sink.writeAll s bytes with
  | case1 s =>
    obtain ⟨-, rfl⟩ := Prod.mk.inj h
    exact (List.append_nil _).symm
  | case2 s b bs next hwrite ih =>
    rw [ih h, contents, contents, (write_interrupted hwrite).1]
  | case3 => cases h
  | case4 => cases h
  | case5 s b bs next n hwrite ih =>
    rw [ih h, contents_of_write hwrite, List.append_assoc, List.take_succ_cons, List.cons_append,
      List.take_append_drop]

/-- A sink that fails does so in its own way, and stays as it was. -/
theorem take_of_failed {fault : IoFault} {n : Nat} (h : s.take bytes n = (.failed fault, s')) :
    s' = s ∧ s.full = some fault := by
  rw [Sink.take] at h
  split at h
  · split at h
    · next own hfull =>
      obtain ⟨hfault, rfl⟩ := Prod.mk.inj h
      exact ⟨rfl, Writing.failed.inj hfault ▸ hfull⟩
    · cases h
  · cases h

/-- A call that failed did so in the sink's own way and wrote nothing. -/
theorem write_of_failed {fault : IoFault} (h : s.write bytes = (.failed fault, s')) :
    s'.contents = s.contents ∧ s.full = some fault := by
  rw [Sink.write] at h
  split at h
  · cases h
  · next limit turns hturns =>
    obtain ⟨rfl, hfull⟩ := take_of_failed h
    exact ⟨rfl, hfull⟩
  · obtain ⟨rfl, hfull⟩ := take_of_failed h
    exact ⟨rfl, hfull⟩

/-- No call changes the way in which a sink fails. -/
theorem full_write (s : Sink) (bytes : Bytes) : (s.write bytes).2.full = s.full := by
  have htake : ∀ (s : Sink) (n : Nat), (s.take bytes n).2.full = s.full := by
    intro s n
    rw [Sink.take]
    split
    · split <;> rfl
    · rfl
  rw [Sink.write]
  split
  · rfl
  · rw [htake]
  · rw [htake]

/-- Nor does writing on. -/
theorem full_writeAll (s : Sink) (bytes : Bytes) : (s.writeAll bytes).2.full = s.full := by
  fun_induction Sink.writeAll s bytes with
  | case1 => rfl
  | case2 s b bs next hwrite ih =>
    rw [ih, ← full_write s (b :: bs), hwrite]
  | case3 s b bs fault next hwrite => rw [← full_write s (b :: bs), hwrite]
  | case4 s b bs next hwrite => rw [← full_write s (b :: bs), hwrite]
  | case5 s b bs n next hwrite ih =>
    rw [ih, ← full_write s (b :: bs), hwrite]

/-- **A sink fails** in its own way, or it takes nothing. -/
theorem fault_of_writeAll {fault : IoFault} (h : s.writeAll bytes = (.error fault, s')) :
    fault = .writeZero ∨ s.full = some fault := by
  fun_induction Sink.writeAll s bytes with
  | case1 => cases h
  | case2 s b bs next hwrite ih =>
    rw [← full_write s (b :: bs), hwrite]
    exact ih h
  | case3 s b bs own next hwrite =>
    obtain rfl := Except.error.inj (Prod.mk.inj h).1
    exact .inr (write_of_failed hwrite).2
  | case4 s b bs next hwrite => exact .inl (Except.error.inj (Prod.mk.inj h).1).symm
  | case5 s b bs n next hwrite ih =>
    rw [← full_write s (b :: bs), hwrite]
    exact ih h

/-- **What arrived** is a front part of what was to be written, whatever the sink does. -/
theorem writeAll_within (s : Sink) (bytes : Bytes) :
    ∃ front, front <+: bytes ∧ (s.writeAll bytes).2.contents = s.contents ++ front := by
  fun_induction Sink.writeAll s bytes with
  | case1 s => exact ⟨[], List.nil_prefix, (List.append_nil _).symm⟩
  | case2 s b bs next hwrite ih =>
    obtain ⟨front, hfront, hcontents⟩ := ih
    exact ⟨front, hfront, by rw [hcontents, contents, (write_interrupted hwrite).1, contents]⟩
  | case3 s b bs fault next hwrite =>
    exact ⟨[], List.nil_prefix, by rw [(write_of_failed hwrite).1, List.append_nil]⟩
  | case4 s b bs next hwrite =>
    exact ⟨[], List.nil_prefix, by rw [contents_of_write hwrite, List.take_zero]⟩
  | case5 s b bs n next hwrite ih =>
    obtain ⟨front, ⟨back, hback⟩, hcontents⟩ := ih
    refine ⟨b :: bs.take n ++ front, ⟨back, ?_⟩, ?_⟩
    · rw [List.append_assoc, hback, List.cons_append, List.take_append_drop]
    · rw [hcontents, contents_of_write hwrite, List.take_succ_cons, List.append_assoc]

/-- A flush writes nothing. -/
theorem contents_flush (s : Sink) : s.flush.2.contents = s.contents := by
  rw [Sink.flush]
  split <;> rfl

/-- Nor does it change the way in which a sink fails. -/
theorem full_flush (s : Sink) : s.flush.2.full = s.full := by
  rw [Sink.flush]
  split <;> rfl

/-- A flush that succeeded says so. -/
theorem flushed_flush (h : s.flush.1 = .ok ()) : s.flush.2.flushed = true := by
  rw [Sink.flush] at h ⊢
  split at h
  · cases h
  · next hfault => rw [hfault]

/-! ## Healthy sinks -/

/-- **A healthy sink** takes at least one byte whenever it is not interrupted, and never fails. -/
structure Healthy (s : Sink) : Prop where
  turns : Turn.upTo 0 ∉ s.turns
  stride : s.stride ≠ some 0
  room : s.room = none
  flushFault : s.flushFault = none

/-- A sink without settings is healthy. -/
theorem healthy_empty : Healthy {} := ⟨List.not_mem_nil, by decide, rfl, rfl⟩

namespace Healthy

/-- What a healthy sink takes. -/
theorem take (h : s.Healthy) (bytes : Bytes) (n : Nat) :
    ∃ s', s.take bytes n = (.took (bytes.take n).length, s') ∧ s'.Healthy ∧
      s'.contents = s.contents ++ bytes.take n := by
  refine ⟨(s.take bytes n).2, ?_, ?_, ?_⟩
  · simp [Sink.take, h.room, limited]
  · simp only [Sink.take, h.room, limited, reduceCtorEq, false_and, if_false]
    exact ⟨h.turns, h.stride, rfl, h.flushFault⟩
  · simp [Sink.take, h.room, limited, contents]

/-- **How a call** on a healthy sink that holds `old` can go: it is interrupted, or it takes some
of the bytes offered, which are `b` and `bs`. -/
inductive Wrote (old : Bytes) (b : UInt8) (bs : Bytes) : Writing × Sink → Prop
  | interrupted {s' : Sink} (hhealthy : s'.Healthy) (hcontents : s'.contents = old) :
      Wrote old b bs (.interrupted, s')
  | took {s' : Sink} {k : Nat} (hhealthy : s'.Healthy)
      (hcontents : s'.contents = old ++ b :: bs.take k) : Wrote old b bs (.took (k + 1), s')

/-- Offered bytes of which at least one is asked for, some are taken. -/
theorem wrote_take (h : s.Healthy) (b : UInt8) (bs : Bytes) {n : Nat} (hn : n ≠ 0) :
    Wrote s.contents b bs (s.take (b :: bs) n) := by
  obtain ⟨s', htake, hhealthy, hcontents⟩ := h.take (b :: bs) n
  obtain ⟨m, rfl⟩ := Nat.exists_eq_succ_of_ne_zero hn
  rw [List.take_succ_cons, List.length_cons] at htake
  rw [htake]
  refine .took hhealthy ?_
  rw [hcontents, List.take_succ_cons, List.length_take, List.take_eq_take_min]

/-- Every call goes in one of these ways. -/
theorem wrote (h : s.Healthy) (b : UInt8) (bs : Bytes) :
    Wrote s.contents b bs (s.write (b :: bs)) := by
  cases hturns : s.turns with
  | nil =>
    rw [Sink.write, hturns]
    refine h.wrote_take b bs ?_
    cases hstride : s.stride with
    | none => exact Nat.succ_ne_zero _
    | some limit =>
      have hlimit : limit ≠ 0 := fun h0 => h.stride (by rw [hstride, h0])
      simp only [limited, List.length_cons]
      omega
  | cons turn turns =>
    have hrest : Turn.upTo 0 ∉ turns := fun hmem =>
      h.turns (by rw [hturns]; exact List.mem_cons_of_mem _ hmem)
    have hnext : Healthy { s with turns } := ⟨hrest, h.stride, h.room, h.flushFault⟩
    rw [Sink.write, hturns]
    cases turn with
    | interrupt => exact .interrupted hnext rfl
    | upTo limit =>
      have hlimit : limit ≠ 0 := by
        rintro rfl
        exact h.turns (by rw [hturns]; exact List.mem_cons_self ..)
      have hsome : min (b :: bs).length limit ≠ 0 := by
        rw [List.length_cons]
        omega
      exact hnext.wrote_take b bs hsome

/-- **Everything arrives.** -/
theorem writeAll (h : s.Healthy) (bytes : Bytes) :
    ∃ s', s.writeAll bytes = (.ok (), s') ∧ s'.Healthy ∧ s'.contents = s.contents ++ bytes := by
  fun_induction Sink.writeAll s bytes with
  | case1 s => exact ⟨s, rfl, h, (List.append_nil _).symm⟩
  | case2 s b bs next hwrite ih =>
    have hwrote := h.wrote b bs
    rw [hwrite] at hwrote
    cases hwrote with
    | interrupted hhealthy hcontents =>
      rw [← hcontents]
      exact ih hhealthy
  | case3 s b bs fault next hwrite =>
    have hwrote := h.wrote b bs
    rw [hwrite] at hwrote
    cases hwrote
  | case4 s b bs next hwrite =>
    have hwrote := h.wrote b bs
    rw [hwrite] at hwrote
    cases hwrote
  | case5 s b bs next n hwrite ih =>
    have hwrote := h.wrote b bs
    rw [hwrite] at hwrote
    cases hwrote with
    | took hhealthy hcontents =>
      obtain ⟨s', hall, hhealthy', hcontents'⟩ := ih hhealthy
      refine ⟨s', hall, hhealthy', ?_⟩
      rw [hcontents', hcontents, List.append_assoc, List.cons_append, List.take_append_drop]

/-- What arrived can be flushed. -/
theorem flush (h : s.Healthy) :
    ∃ s', s.flush = (.ok (), s') ∧ s'.Healthy ∧ s'.contents = s.contents := by
  refine ⟨{ s with flushed := true }, ?_, ⟨h.turns, h.stride, h.room, h.flushFault⟩, rfl⟩
  rw [Sink.flush, h.flushFault]

end Healthy

end AeadStream.Sink
