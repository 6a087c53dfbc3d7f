import AeadStream.Source

/-!
# Reading in any pieces

However a source cuts its bytes into pieces, and however often it is interrupted, reading exactly
`n` bytes gives the next `n` bytes, if there are so many before the source ends or fails for good.

* `Source.readExact_eq_ok`, `Source.fault_of_readExact` — what was read, and how it fails, on any
  source;
* `Source.Delivers.readExact`, `Source.Delivers.readExact_short` — that it is read, and how
  reading fails where the bytes do not suffice;
* `Source.Delivers.fill` — filling up stops early only at the end;
* `Source.Steady.fill` — so it does on a source that may fail at any point, if it succeeds.
-/

namespace AeadStream.Source

variable {s s' : Source} {n : Nat} {got bytes : Bytes} {ending : Option IoFault}

/-! ## Any source -/

/-- Reading on gives no more bytes than were asked for. -/
theorem length_gatherOnto_le (s : Source) (n : Nat) (got : Bytes) :
    (s.gatherOnto n got).got.length ≤ got.length + n := by
  fun_induction gatherOnto s n got with
  | case1 s got => simp
  | case2 s n got hn s' h ih => exact ih
  | case3 s n got hn fault s' h => simp
  | case4 s n got hn s' h => simp
  | case5 s n got hn b bs s' h ih =>
    -- the piece that came is no longer than what was asked for
    have hlen := (read_bytes h).2.1
    simp only [List.length_append, List.length_reverse, List.length_cons] at ih hlen ⊢
    omega

/-- **Bytes read exactly** are the next ones, and as many as were asked for. -/
theorem readExact_eq_ok (h : s.readExact n = (.ok got, s')) :
    s.rest = got ++ s'.rest ∧ got.length = n := by
  obtain ⟨hrest, hle⟩ := readExact_ok h
  have hge : got.length ≤ n := by
    have hlen := s.length_gatherOnto_le n []
    rw [readExact, gather] at h
    split at h
    · cases h
    · split at h
      · cases h
      · obtain rfl := Except.ok.inj (Prod.mk.inj h).1
        simpa using hlen
  exact ⟨hrest, Nat.le_antisymm hge hle⟩

/-- Bytes filled up are the next ones, and no more than were asked for. -/
theorem fill_eq_ok (h : s.fill n = (.ok got, s')) :
    s.rest = got ++ s'.rest ∧ got.length ≤ n := by
  refine ⟨fill_ok h, ?_⟩
  have hlen := s.length_gatherOnto_le n []
  rw [fill, gather] at h
  split at h
  · cases h
  · obtain rfl := Except.ok.inj (Prod.mk.inj h).1
    simpa using hlen

/-! ## Faults of a source -/

/-- The fault with which a source fails for good, sooner or later, if it does. -/
def ownFault (s : Source) : Option IoFault := s.stop.map Prod.snd

@[simp] theorem ownFault_give (s : Source) (n : Nat) : (s.give n).2.ownFault = s.ownFault := by
  rw [give]
  split
  · rfl
  · next hstop => rw [ownFault, ownFault, hstop]; rfl
  · rfl

@[simp] theorem ownFault_read (s : Source) (n : Nat) : (s.read n).2.ownFault = s.ownFault := by
  rw [read]
  split
  · rfl
  · exact ownFault_give ..
  · exact ownFault_give ..

theorem ownFault_of_give {fault : IoFault} (h : s.give n = (.failed fault, s')) :
    s.ownFault = some fault := by
  rw [give] at h
  split at h
  · next hstop =>
    cases h
    rw [ownFault, hstop]
    rfl
  · cases h
  · cases h

/-- A call fails with this fault only. -/
theorem ownFault_of_read {fault : IoFault} (h : s.read n = (.failed fault, s')) :
    s.ownFault = some fault := by
  rw [read] at h
  split at h
  · cases h
  · next turns _ => exact ownFault_of_give (s := { s with turns }) h
  · exact ownFault_of_give h

/-- So does reading on, and the source keeps its fault. -/
theorem ownFault_gatherOnto (s : Source) (n : Nat) (got : Bytes) :
    (s.gatherOnto n got).source.ownFault = s.ownFault ∧
      ∀ fault, (s.gatherOnto n got).fault = some fault → s.ownFault = some fault := by
  fun_induction gatherOnto s n got with
  | case1 s got =>
    refine ⟨rfl, fun own hown => ?_⟩
    cases hown
  | case2 s n got hn next hread ih =>
    have hkept := s.ownFault_read n
    rw [hread] at hkept
    rwa [hkept] at ih
  | case3 s n got hn fault next hread =>
    have hkept := s.ownFault_read n
    rw [hread] at hkept
    refine ⟨hkept, fun own hown => ?_⟩
    cases hown
    exact ownFault_of_read hread
  | case4 s n got hn next hread =>
    have hkept := s.ownFault_read n
    rw [hread] at hkept
    refine ⟨hkept, fun own hown => ?_⟩
    cases hown
  | case5 s n got hn b bs next hread ih =>
    have hkept := s.ownFault_read n
    rw [hread] at hkept
    rwa [hkept] at ih

@[simp] theorem ownFault_readExact (s : Source) (n : Nat) :
    (s.readExact n).2.ownFault = s.ownFault := by
  have hkept := (s.ownFault_gatherOnto n []).1
  rw [readExact, gather]
  split
  · exact hkept
  · split
    · exact hkept
    · exact hkept

/-- **Reading exactly fails** because the bytes run out, or with the fault of the source. -/
theorem fault_of_readExact {fault : IoFault} (h : s.readExact n = (.error fault, s')) :
    fault = .endOfInput ∨ s.ownFault = some fault := by
  have hown := (s.ownFault_gatherOnto n []).2
  rw [readExact, gather] at h
  split at h
  · next own hfault =>
    cases h
    exact .inr (hown _ hfault)
  · split at h
    · cases h
      exact .inl rfl
    · cases h

/-! ## Sources that deliver bytes -/

/-- **How a source stops** behind these bytes: it ends there, or it fails for good. -/
inductive Stops (s : Source) (bytes : Bytes) : Option IoFault → Prop
  | ended (hstop : s.stop = none) (hrest : s.rest = bytes) : Stops s bytes none
  | failed {fault : IoFault} {behind : Bytes} (hstop : s.stop = some (bytes.length, fault))
      (hrest : s.rest = bytes ++ behind) : Stops s bytes (some fault)

/-- **A source that delivers** these bytes gives at least one of them whenever it is not
interrupted, and stops behind them. -/
structure Delivers (s : Source) (bytes : Bytes) (ending : Option IoFault) : Prop where
  turns : Turn.upTo 0 ∉ s.turns
  stride : s.stride ≠ some 0
  stops : Stops s bytes ending

namespace Delivers

/-- **How a call** that asks for at least one byte and at most `n` can go on a source that
delivers these bytes: it is interrupted, or it gives some of them, or they are used up. -/
inductive Gave (n : Nat) (bytes : Bytes) (ending : Option IoFault) : Reading × Source → Prop
  | interrupted {s' : Source} (hnext : s'.Delivers bytes ending) :
      Gave n bytes ending (.interrupted, s')
  | bytes {s' : Source} {got left : Bytes} (hnext : s'.Delivers left ending)
      (hbytes : bytes = got ++ left) (hsome : got ≠ []) (hle : got.length ≤ n) :
      Gave n bytes ending (.bytes got, s')
  | ended {s' : Source} (hnext : s'.Delivers [] none) (hbytes : bytes = [])
      (hending : ending = none) : Gave n bytes ending (.bytes [], s')
  | failed {s' : Source} {fault : IoFault} (hnext : s'.Delivers [] (some fault))
      (hbytes : bytes = []) (hending : ending = some fault) :
      Gave n bytes ending (.failed fault, s')

/-- A source that will fail gives no more than what it gives before. -/
theorem give_of_stop {left m : Nat} {fault : IoFault} (hstop : s.stop = some (left, fault))
    (hleft : left ≠ 0) :
    s.give m = (.bytes (s.rest.take (min m left)),
      { s with
        rest := s.rest.drop (min m left)
        stop := some (left - (s.rest.take (min m left)).length, fault) }) := by
  obtain ⟨k, rfl⟩ := Nat.exists_eq_succ_of_ne_zero hleft
  rw [give, hstop]
  rfl

/-- Asked for at least one byte and at most `n`, the source goes in one of these ways. -/
theorem gave_give (h : s.Delivers bytes ending) {m : Nat} (hm : m ≠ 0) (hle : m ≤ n) :
    Gave n bytes ending (s.give m) := by
  obtain ⟨hturns, hstride, hstops⟩ := h
  -- a piece of these bytes is not empty, unless they are used up
  have hpiece : ∀ k, k ≠ 0 → bytes ≠ [] → bytes.take k ≠ [] := fun k hk hne htake =>
    (List.take_eq_nil_iff.mp htake).elim hk hne
  cases hstops with
  | ended hstop hrest =>
    have hgive : s.give m = (.bytes (bytes.take m), { s with rest := bytes.drop m }) := by
      rw [give, hstop, hrest]
    rw [hgive]
    by_cases hne : bytes = []
    · subst hne
      rw [List.take_nil, List.drop_nil]
      exact .ended ⟨hturns, hstride, .ended hstop rfl⟩ rfl rfl
    · refine .bytes ⟨hturns, hstride, .ended hstop rfl⟩ (List.take_append_drop m bytes).symm
        (hpiece m hm hne) ?_
      rw [List.length_take]
      omega
  | @failed fault behind hstop hrest =>
    by_cases hne : bytes = []
    · subst hne
      have hgive : s.give m = (.failed fault, s) := by
        rw [give, hstop]
        rfl
      rw [hgive]
      exact .failed ⟨hturns, hstride, .failed hstop hrest⟩ rfl rfl
    · have hlen : bytes.length ≠ 0 := fun h0 => hne (List.length_eq_zero_iff.mp h0)
      have hk : min m bytes.length ≤ bytes.length := Nat.min_le_right ..
      have hleft : bytes.length - (bytes.take (min m bytes.length)).length =
          (bytes.drop (min m bytes.length)).length := by
        rw [List.length_take, List.length_drop]
        omega
      rw [give_of_stop hstop hlen, hrest, List.take_append_of_le_length hk,
        List.drop_append_of_le_length hk, hleft]
      refine .bytes ⟨hturns, hstride, .failed rfl rfl⟩ (List.take_append_drop _ bytes).symm
        (hpiece _ (by omega) hne) ?_
      rw [List.length_take]
      omega

/-- Every call goes in one of these ways. -/
theorem gave (h : s.Delivers bytes ending) (hn : n ≠ 0) : Gave n bytes ending (s.read n) := by
  cases hturns : s.turns with
  | nil =>
    rw [read, hturns]
    cases hstride : s.stride with
    | none => exact h.gave_give hn (Nat.le_refl n)
    | some limit =>
      have hlimit : limit ≠ 0 := fun h0 => h.stride (by rw [hstride, h0])
      have hsome : min n limit ≠ 0 := by omega
      exact h.gave_give hsome (Nat.min_le_left n limit)
  | cons turn turns =>
    have hrest : Turn.upTo 0 ∉ turns := fun hmem =>
      h.turns (by rw [hturns]; exact List.mem_cons_of_mem _ hmem)
    have hnext : Delivers { s with turns } bytes ending := by
      refine ⟨hrest, h.stride, ?_⟩
      cases h.stops with
      | ended hstop hbytes => exact .ended hstop hbytes
      | failed hstop hbytes => exact .failed hstop hbytes
    rw [read, hturns]
    cases turn with
    | interrupt => exact .interrupted hnext
    | upTo limit =>
      have hlimit : limit ≠ 0 := by
        rintro rfl
        exact h.turns (by rw [hturns]; exact List.mem_cons_self ..)
      have hsome : min n limit ≠ 0 := by omega
      exact hnext.gave_give hsome (Nat.min_le_left n limit)

/-- Reading on gives everything that was asked for, as far as it is there, and a fault if the
source fails before. -/
theorem gatherOnto (h : s.Delivers bytes ending) (got : Bytes) :
    ∃ s', s.gatherOnto n got =
        ⟨got.reverse ++ bytes.take n, if n ≤ bytes.length then none else ending, s'⟩ ∧
      s'.Delivers (bytes.drop n) ending := by
  fun_induction Source.gatherOnto s n got generalizing bytes with
  | case1 s got => exact ⟨s, by simp, h⟩
  | case2 s n got hzero next hread ih =>
    have hgave := h.gave hzero
    rw [hread] at hgave
    cases hgave with
    | interrupted hnext => exact ih hnext
  | case3 s n got hzero fault next hread =>
    have hgave := h.gave hzero
    rw [hread] at hgave
    cases hgave with
    | failed hnext hbytes hending =>
      subst hbytes hending
      refine ⟨next, ?_, by rwa [List.drop_nil]⟩
      rw [List.take_nil, List.append_nil, List.length_nil, if_neg (by omega)]
  | case4 s n got hzero next hread =>
    have hgave := h.gave hzero
    rw [hread] at hgave
    cases hgave with
    | bytes _ _ hsome => exact absurd rfl hsome
    | ended hnext hbytes hending =>
      subst hbytes hending
      exact ⟨next, by simp, by rwa [List.drop_nil]⟩
  | case5 s n got hzero b bs next hread ih =>
    have hgave := h.gave hzero
    rw [hread] at hgave
    cases hgave with
    | @bytes _ _ left hnext hbytes _ hle =>
      obtain ⟨s', hgather, hlater⟩ := ih hnext
      have hpiece : bs.length + 1 ≤ n := hle
      have hlen : bytes.length = bs.length + 1 + left.length := by
        rw [hbytes, List.length_append, List.length_cons]
      have htake : bytes.take n = (b :: bs) ++ left.take (n - (bs.length + 1)) := by
        rw [hbytes, List.take_append, List.take_of_length_le hle, List.length_cons]
      have hdrop : bytes.drop n = left.drop (n - (bs.length + 1)) := by
        rw [hbytes, List.drop_append, List.drop_of_length_le hle, List.nil_append,
          List.length_cons]
      have hiff : n - (bs.length + 1) ≤ left.length ↔ n ≤ bytes.length := by omega
      refine ⟨s', ?_, by rwa [hdrop]⟩
      rw [hgather, htake, List.reverse_append, List.reverse_reverse, List.append_assoc]
      simp only [hiff]

/-- **Bytes that are there are read exactly.** -/
theorem readExact {front back : Bytes} (h : s.Delivers (front ++ back) ending) :
    ∃ s', s.readExact front.length = (.ok front, s') ∧ s'.Delivers back ending := by
  have hle : front.length ≤ (front ++ back).length := by
    rw [List.length_append]
    omega
  obtain ⟨s', hgather, hnext⟩ := h.gatherOnto (n := front.length) []
  rw [List.drop_left] at hnext
  rw [if_pos hle, List.take_left] at hgather
  refine ⟨s', ?_, hnext⟩
  simp [Source.readExact, gather, hgather]

/-- **Bytes that are not there** are missed, or the source fails before. -/
theorem readExact_short (h : s.Delivers bytes ending) (hlt : bytes.length < n) :
    ∃ s', s.readExact n = (.error (ending.getD .endOfInput), s') := by
  obtain ⟨s', hgather, -⟩ := h.gatherOnto (n := n) []
  rw [if_neg (Nat.not_le.mpr hlt), List.take_of_length_le (Nat.le_of_lt hlt)] at hgather
  refine ⟨s', ?_⟩
  cases ending with
  | none => simp [Source.readExact, gather, hgather, hlt]
  | some fault => simp [Source.readExact, gather, hgather]

/-- **Filling up** gives what was asked for, or all that is there if the source ends before. -/
theorem fill (h : s.Delivers bytes none) (n : Nat) :
    ∃ s', s.fill n = (.ok (bytes.take n), s') ∧ s'.Delivers (bytes.drop n) none := by
  obtain ⟨s', hgather, hnext⟩ := h.gatherOnto (n := n) []
  rw [ite_self] at hgather
  refine ⟨s', ?_, hnext⟩
  simp [Source.fill, gather, hgather]

/-- **Filling up** fails where the source fails before. -/
theorem fill_short {fault : IoFault} (h : s.Delivers bytes (some fault)) (hlt : bytes.length < n) :
    ∃ s', s.fill n = (.error fault, s') := by
  obtain ⟨s', hgather, -⟩ := h.gatherOnto (n := n) []
  rw [if_neg (Nat.not_le.mpr hlt)] at hgather
  refine ⟨s', ?_⟩
  simp [Source.fill, gather, hgather]

end Delivers

/-! ## Healthy sources -/

/-- **A healthy source** gives at least one byte whenever it is not interrupted and not at its
end, and never fails. -/
structure Healthy (s : Source) : Prop where
  turns : Turn.upTo 0 ∉ s.turns
  stride : s.stride ≠ some 0
  stop : s.stop = none

/-- Plain bytes are a healthy source. -/
theorem healthy_ofBytes (bytes : Bytes) : (ofBytes bytes).Healthy :=
  ⟨List.not_mem_nil, nofun, rfl⟩

/-- A healthy source delivers all that it holds. -/
theorem Healthy.delivers (h : s.Healthy) (hrest : s.rest = bytes) : s.Delivers bytes none :=
  ⟨h.turns, h.stride, .ended h.stop hrest⟩

/-- A source that ends behind the bytes that it delivers is healthy. -/
theorem Delivers.healthy (h : s.Delivers bytes none) : s.Healthy ∧ s.rest = bytes := by
  cases h.stops with
  | ended hstop hrest => exact ⟨⟨h.turns, h.stride, hstop⟩, hrest⟩

/-! ## Steady sources -/

/-- **A steady source** gives at least one byte whenever it is not interrupted, as long as there
are any. It may fail at any point. -/
structure Steady (s : Source) : Prop where
  turns : s.rest ≠ [] → Turn.upTo 0 ∉ s.turns
  stride : s.rest ≠ [] → s.stride ≠ some 0

/-- A call leaves no more bytes than there were, and the stride as it was. -/
theorem give_keeps (s : Source) (n : Nat) :
    (s.give n).2.stride = s.stride ∧ ∃ k, (s.give n).2.rest = s.rest.drop k := by
  rw [give]
  split
  · exact ⟨rfl, 0, rfl⟩
  · exact ⟨rfl, _, rfl⟩
  · exact ⟨rfl, _, rfl⟩

/-- Asked for at least one byte, a source that goes on gives some as long as there are any. -/
theorem give_nil (hn : n ≠ 0) (h : s.give n = (.bytes [], s')) : s.rest = [] := by
  rw [give] at h
  split at h
  · cases h
  · next left fault hleft hstop =>
    have hsome : min n left ≠ 0 := by
      intro hzero
      have hleft' : left = 0 := by omega
      exact hleft hleft'
    exact (List.take_eq_nil_iff.mp (Reading.bytes.inj (Prod.mk.inj h).1)).resolve_left hsome
  · exact (List.take_eq_nil_iff.mp (Reading.bytes.inj (Prod.mk.inj h).1)).resolve_left hn

namespace Steady

theorem give (h : s.Steady) (n : Nat) : (s.give n).2.Steady := by
  obtain ⟨hstride, k, hrest⟩ := s.give_keeps n
  have hsome : (s.give n).2.rest ≠ [] → s.rest ≠ [] := by
    rintro hne hnil
    rw [hrest, hnil, List.drop_nil] at hne
    exact hne rfl
  refine ⟨fun hne => ?_, fun hne => ?_⟩
  · rw [turns_give]
    exact h.turns (hsome hne)
  · rw [hstride]
    exact h.stride (hsome hne)

/-- A steady source stays one when a turn is used up. -/
theorem tail {turn : Turn} {turns : List Turn} (h : s.Steady) (hturns : s.turns = turn :: turns) :
    Steady { s with turns } :=
  ⟨fun hne hmem => h.turns hne (by rw [hturns]; exact List.mem_cons_of_mem _ hmem), h.stride⟩

/-- A steady source stays one after every call. -/
theorem read (h : s.Steady) (n : Nat) : (s.read n).2.Steady := by
  rw [Source.read]
  split
  · next turns hturns => exact h.tail hturns
  · next limit turns hturns => exact (h.tail hturns).give _
  · exact h.give _

/-- Asked for at least one byte, a steady source gives none only if there are none. -/
theorem read_nil (h : s.Steady) (hn : n ≠ 0) (hread : s.read n = (.bytes [], s')) :
    s.rest = [] := by
  refine Classical.byContradiction fun hne => ?_
  rw [Source.read] at hread
  split at hread
  · cases hread
  · next limit turns hturns =>
    have hlimit : limit ≠ 0 := by
      rintro rfl
      exact h.turns hne (by rw [hturns]; exact List.mem_cons_self ..)
    have hsome : min n limit ≠ 0 := by omega
    exact hne (give_nil (s := { s with turns }) hsome hread)
  · cases hstride : s.stride with
    | none =>
      rw [hstride] at hread
      exact hne (give_nil hn hread)
    | some limit =>
      have hlimit : limit ≠ 0 := fun h0 => h.stride hne (by rw [hstride, h0])
      have hsome : min n limit ≠ 0 := by omega
      rw [hstride] at hread
      exact hne (give_nil hsome hread)

/-- Reading on without a fault gives everything that was asked for, as far as it is there. -/
theorem gatherOnto (h : s.Steady) (got : Bytes) (hfault : (s.gatherOnto n got).fault = none) :
    (s.gatherOnto n got).got = got.reverse ++ s.rest.take n ∧
      (s.gatherOnto n got).source.rest = s.rest.drop n ∧
      (s.gatherOnto n got).source.Steady := by
  fun_induction Source.gatherOnto s n got with
  | case1 s got => exact ⟨by simp, rfl, h⟩
  | case2 s n got hzero next hread ih =>
    have hnext := h.read n
    rw [hread] at hnext
    rw [← (read_interrupted hread).1]
    exact ih hnext hfault
  | case3 => cases hfault
  | case4 s n got hzero next hread =>
    have hnext := h.read n
    rw [hread] at hnext
    have hrest := (read_bytes hread).1
    have hnil := h.read_nil hzero hread
    rw [hnil, List.nil_append] at hrest
    rw [hnil, ← hrest]
    exact ⟨by simp, List.drop_nil.symm, hnext⟩
  | case5 s n got hzero b bs next hread ih =>
    have hnext := h.read n
    rw [hread] at hnext
    obtain ⟨hrest, hle, -⟩ := read_bytes hread
    obtain ⟨hgot, hleft, hsteady⟩ := ih hnext hfault
    have hlen : (b :: bs).length = bs.length + 1 := rfl
    refine ⟨?_, ?_, hsteady⟩
    · rw [hgot, hrest, List.take_append, List.take_of_length_le hle, hlen, List.reverse_append,
        List.reverse_reverse, List.append_assoc]
    · rw [hleft, hrest, List.drop_append, List.drop_of_length_le hle, hlen, List.nil_append]

/-- **Filling up** a steady source gives what was asked for, or all that is there, if it gives
anything. -/
theorem fill (h : s.Steady) (hfill : s.fill n = (.ok got, s')) :
    got = s.rest.take n ∧ s'.rest = s.rest.drop n ∧ s'.Steady := by
  rw [Source.fill, gather] at hfill
  split at hfill
  · cases hfill
  · next hfault =>
    obtain ⟨rfl, rfl⟩ : (s.gatherOnto n []).got = got ∧ (s.gatherOnto n []).source = s' := by
      cases hfill
      exact ⟨rfl, rfl⟩
    exact h.gatherOnto [] hfault

end Steady

end AeadStream.Source
