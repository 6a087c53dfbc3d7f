import Mathlib.Data.List.TakeWhile
import AeadStream.Proofs.Pipe.Password

/-!
# The first line of a password file

A password file is taken as a whole, less one line end at its end. So its password is its first
line just if there is nothing behind this line and its end. Files with the same first line and
nothing behind it are interchangeable: what was encrypted under the one is decrypted under the
other. With further lines they are not.

* `PasswordFile.withoutLineEnd_eq_firstLine_iff` — when the password is the first line;
* `opens_self` — every stream that was written under a password is decrypted under it;
* `first_line_is_the_password` — files that are interchangeable;
* `first_line_is_not_the_password` — files that are not.
-/

namespace AeadStream

/-! ## Lines -/

namespace PasswordFile

variable {contents line password : Bytes}

/-- A line less the carriage return at its end. -/
def withoutReturn (line : Bytes) : Bytes :=
  if line.getLast? = some 0x0d then line.dropLast else line

/-- **The first line:** the bytes before the first line feed, less a carriage return directly before
it. Without a line feed it is everything. -/
def firstLine (contents : Bytes) : Bytes :=
  if 0x0a ∈ contents then withoutReturn (contents.takeWhile (· ≠ 0x0a)) else contents

/-- What is behind the first line feed. -/
def behindFirstLine (contents : Bytes) : Bytes := (contents.dropWhile (· ≠ 0x0a)).drop 1

/-- Without a line feed there is one line. -/
theorem firstLine_of_not_mem (h : 0x0a ∉ contents) :
    firstLine contents = contents ∧ behindFirstLine contents = [] := by
  have hall : ∀ b ∈ contents, decide (b ≠ 0x0a) = true := fun b hb =>
    decide_eq_true fun heq => h (heq ▸ hb)
  rw [firstLine, if_neg h, behindFirstLine, List.dropWhile_eq_nil_iff.mpr hall]
  exact ⟨rfl, rfl⟩

/-- The first line feed ends the first line. -/
theorem firstLine_append (h : 0x0a ∉ line) (behind : Bytes) :
    firstLine (line ++ 0x0a :: behind) = withoutReturn line ∧
      behindFirstLine (line ++ 0x0a :: behind) = behind := by
  have hall : ∀ b ∈ line, decide (b ≠ 0x0a) = true := fun b hb =>
    decide_eq_true fun heq => h (heq ▸ hb)
  have hfeed : (0x0a : UInt8) ∈ line ++ 0x0a :: behind :=
    List.mem_append_right _ (List.mem_cons_self ..)
  have htake : (0x0a :: behind).takeWhile (fun b => decide (b ≠ 0x0a)) = [] := rfl
  have hdrop : (0x0a :: behind).dropWhile (fun b => decide (b ≠ 0x0a)) = 0x0a :: behind := rfl
  rw [firstLine, if_pos hfeed, behindFirstLine, List.takeWhile_append_of_pos hall,
    List.dropWhile_append_of_pos hall, htake, hdrop, List.append_nil]
  exact ⟨rfl, rfl⟩

/-- Line feeds are not in a line. -/
theorem not_mem_withoutReturn (h : 0x0a ∉ line) : 0x0a ∉ withoutReturn line := by
  rw [withoutReturn]
  split
  · exact fun hmem => h (List.mem_of_mem_dropLast hmem)
  · exact h

/-! ## Line ends -/

/-- There is no line end to take off without a line feed. -/
theorem withoutLineEnd_of_not_mem (h : 0x0a ∉ contents) : withoutLineEnd contents = contents := by
  have hno : ∀ lineEnd : Bytes, 0x0a ∈ lineEnd → ¬lineEnd.isSuffixOf contents = true :=
    fun lineEnd hmem hsuffix => h ((List.isSuffixOf_iff_suffix.mp hsuffix).subset hmem)
  rw [withoutLineEnd, if_neg (hno _ (by decide)), if_neg (hno _ (by decide))]

/-- The line end of a line is taken off. -/
theorem withoutLineEnd_append (line : Bytes) :
    withoutLineEnd (line ++ [0x0a]) = withoutReturn line := by
  have hfeed : [0x0a].isSuffixOf (line ++ [(0x0a : UInt8)]) = true :=
    List.isSuffixOf_iff_suffix.mpr (List.suffix_append ..)
  have hreturn : [0x0d, 0x0a].isSuffixOf (line ++ [(0x0a : UInt8)]) = true ↔
      line.getLast? = some 0x0d := by
    rw [List.isSuffixOf_iff_suffix, List.getLast?_eq_some_iff]
    constructor
    · rintro ⟨before, hbefore⟩
      refine ⟨before, ?_⟩
      rw [show ([0x0d, 0x0a] : Bytes) = [0x0d] ++ [0x0a] from rfl, ← List.append_assoc] at hbefore
      exact (List.append_inj_left' hbefore rfl).symm
    · rintro ⟨before, rfl⟩
      exact ⟨before, by rw [List.append_assoc]; rfl⟩
  rw [withoutLineEnd, withoutReturn, if_pos hfeed, List.dropLast_concat]
  simp only [hreturn]

/-- A line feed with something behind it stays. -/
theorem mem_withoutLineEnd {behind : Bytes} (hbehind : behind ≠ []) (line : Bytes) :
    0x0a ∈ withoutLineEnd (line ++ 0x0a :: behind) := by
  have hfeed : ∀ back : Bytes, (0x0a : UInt8) ∈ line ++ 0x0a :: back := fun back =>
    List.mem_append_right _ (List.mem_cons_self ..)
  obtain ⟨b, bs, rfl⟩ := List.exists_cons_of_ne_nil hbehind
  rw [withoutLineEnd]
  split
  · next hreturn =>
    cases bs with
    | nil =>
      -- what is before the last byte is a line feed and no carriage return
      obtain ⟨before, hbefore⟩ := List.isSuffixOf_iff_suffix.mp hreturn
      have htwo := List.append_inj_right' hbefore rfl
      cases htwo
    | cons b' bs =>
      rw [List.dropLast_append_cons, List.dropLast_cons_cons, List.dropLast_cons_cons,
        List.dropLast_append_cons]
      cases hlast : (b' :: bs).dropLast with
      | nil => exact hfeed []
      | cons => exact hfeed _
  · split
    · rw [List.dropLast_append_cons, List.dropLast_cons_cons]
      exact hfeed _
    · exact hfeed _

/-- **The password of a file is its first line** just if there is nothing behind this line. -/
theorem withoutLineEnd_eq_firstLine_iff :
    withoutLineEnd contents = firstLine contents ↔ behindFirstLine contents = [] := by
  by_cases hmem : 0x0a ∈ contents
  · obtain ⟨line, behind, rfl, hline⟩ := List.eq_append_cons_of_mem hmem
    obtain ⟨hfirst, hbehind⟩ := firstLine_append hline behind
    rw [hfirst, hbehind]
    constructor
    · intro hsame
      refine Classical.byContradiction fun hne => not_mem_withoutReturn hline ?_
      rw [← hsame]
      exact mem_withoutLineEnd hne line
    · rintro rfl
      exact withoutLineEnd_append line
  · obtain ⟨hfirst, hbehind⟩ := firstLine_of_not_mem hmem
    rw [hfirst, hbehind, withoutLineEnd_of_not_mem hmem]
    exact ⟨fun _ => rfl, fun _ => rfl⟩

example : firstLine [97, 10, 98] = [97] ∧ withoutLineEnd [97, 10, 98] = [97, 10, 98] := by decide

/-- A password is accepted unless nothing is left of the file. -/
theorem parse_eq_ok_iff :
    parse contents = .ok password ↔ password = withoutLineEnd contents ∧ password ≠ [] := by
  rw [parse]
  by_cases hnil : withoutLineEnd contents = []
  · simp only [if_pos hnil]
    constructor
    · intro h
      cases h
    · rintro ⟨rfl, hne⟩
      exact absurd hnil hne
  · simp only [if_neg hnil]
    constructor
    · intro h
      obtain rfl := Except.ok.inj h
      exact ⟨rfl, hnil⟩
    · rintro ⟨rfl, -⟩
      rfl

end PasswordFile

namespace Pipe

open AeadStream.Frame AeadStream.PasswordFile

/-! ## Streams under a password -/

/-- **A password opens what another one locked:** a stream that was written under the one, whatever
the ends were, holds a plaintext, and under the other it is decrypted to this plaintext from any
healthy source into any healthy sink, whatever comes behind it, with both sides in step and the
limit of the receiver not below that of the sender. -/
def Opens (opening locking : Bytes) : Prop :=
  ∀ {ρ : Type} [Entropy ρ] (random : ρ) (ends : Ends) (costs : Argon2.Costs)
      (sending receiving : Config) (chunkSize : Nat) (epilogue : Epilogue),
    (encryptWithPassword ends locking random costs sending chunkSize).result = .ok epilogue →
    max 1 (min sending.rekeyInterval.toNat Config.maxRekeyInterval.toNat) =
      max 1 (min receiving.rekeyInterval.toNat Config.maxRekeyInterval.toNat) →
    sending.maxChunkLen ≤ receiving.maxChunkLen →
    ∃ plaintext written,
      ends.source.rest = plaintext ++
        (encryptWithPassword ends locking random costs sending chunkSize).state.source.rest ∧
      (encryptWithPassword ends locking random costs sending chunkSize).state.sink.contents =
        ends.sink.contents ++ written ∧
      epilogue = Epilogue.ofPlaintext plaintext ∧
      (plaintext.length < UInt64.size → ∀ (other : Ends) (back : Bytes), other.source.Healthy →
        other.source.rest = written ++ back → other.sink.Healthy →
        (decryptWithPassword other opening receiving).result = .ok epilogue ∧
          (decryptWithPassword other opening receiving).state.sink.contents =
            other.sink.contents ++ plaintext)

/-- Every password opens what it locked. -/
theorem opens_self (password : Bytes) : Opens password password := by
  intro ρ _ random ends costs sending receiving chunkSize epilogue hencrypt hclamp hlimit
  obtain ⟨preamble, key, header, plaintext, hcheck, hkey, rfl, hrest, hfit, hcontents⟩ :=
    sent_of_encryptWithPassword hencrypt
  refine ⟨plaintext, _, hrest, hcontents, rfl, fun hlt other back hsource hother hsink => ?_⟩
  rw [List.append_assoc, List.append_assoc] at hother
  obtain ⟨source, hnext, hdecrypt⟩ :=
    decryptWithPassword_of_delivers hcheck hkey (hsource.delivers hother) receiving
  rw [hdecrypt]
  exact decrypt_of_allFit hfit hclamp hlimit hlt { other with source } hnext hsink

/-! ## Files with the same first line -/

/-- **Password files that are interchangeable:** both are accepted or none, and what was encrypted
under one of them is decrypted under the other. -/
structure Interchangeable (contents contents' : Bytes) : Prop where
  accepted : (∃ password, parse contents = .ok password) ↔
    ∃ password, parse contents' = .ok password
  opens : ∀ password password', parse contents = .ok password → parse contents' = .ok password' →
    Opens password password' ∧ Opens password' password

/-- Files that agree once a line end is taken off are. -/
theorem interchangeable_of_withoutLineEnd {contents contents' : Bytes}
    (h : withoutLineEnd contents = withoutLineEnd contents') :
    Interchangeable contents contents' where
  accepted := by simp only [parse_eq_ok_iff, h]
  opens := by
    intro password password' hparse hparse'
    obtain rfl := (parse_eq_ok_iff.mp hparse).1
    obtain rfl := (parse_eq_ok_iff.mp hparse').1
    rw [h]
    exact ⟨opens_self _, opens_self _⟩

/-- **The first line of a file is its password** just if there is nothing behind this line. So files
with the same first line and nothing behind it are interchangeable. With further lines these count
as well, up to one line end behind the last of them. -/
theorem first_line_is_the_password (contents contents' : Bytes) :
    (withoutLineEnd contents = firstLine contents ↔ behindFirstLine contents = []) ∧
    (firstLine contents = firstLine contents' → behindFirstLine contents = [] →
      behindFirstLine contents' = [] → Interchangeable contents contents') ∧
    (withoutLineEnd contents = withoutLineEnd contents' →
      Interchangeable contents contents') := by
  refine ⟨withoutLineEnd_eq_firstLine_iff, ?_, interchangeable_of_withoutLineEnd⟩
  intro hfirst hbehind hbehind'
  refine interchangeable_of_withoutLineEnd ?_
  rw [withoutLineEnd_eq_firstLine_iff.mpr hbehind, withoutLineEnd_eq_firstLine_iff.mpr hbehind',
    hfirst]

/-- Three bytes that were encrypted under a file with one line and no line end come back under one
with both bytes of a line end. -/
theorem first_line_is_the_password_with_and_without_end :
    firstLine [97] = firstLine [97, 13, 10] ∧ behindFirstLine [97] = [] ∧
      behindFirstLine [97, 13, 10] = [] ∧ parse [97] = .ok [97] ∧ parse [97, 13, 10] = .ok [97] ∧
      ∃ written, (encryptWithPassword threeBytes [97] (Tape.mk (List.replicate 40 0)) ⟨8, 1, 1⟩
          { maxChunkLen := 88 } 2).state.sink.contents = written ∧
        (decryptWithPassword ⟨.ofBytes written, {}⟩ [97] {}).result =
          .ok (Epilogue.ofPlaintext [1, 2, 3]) := by
  have hfirst : firstLine [97] = firstLine [97, 13, 10] := rfl
  have hbehind : behindFirstLine [97] = [] := rfl
  have hbehind' : behindFirstLine [97, 13, 10] = [] := rfl
  have hparse : parse [97] = .ok [97] := rfl
  have hparse' : parse [97, 13, 10] = .ok [97] := rfl
  have hsalt : Entropy.draw (Tape.mk (List.replicate 40 0)) 16 =
      (.ok (.zero 16), Tape.mk (List.replicate 24 0)) := rfl
  have hdraw : (Entropy.draw (Tape.mk (List.replicate 24 0)) 24).1 = .ok (Octets.zero 24) := rfl
  have hsuits : Suits 2 { maxChunkLen := 88 } [1, 2, 3] :=
    ⟨by decide, by decide, Epilogue.length_encode_ofPlaintext_le _⟩
  have hsource : threeBytes.source.Healthy := ⟨by decide, nofun, rfl⟩
  have hsink : threeBytes.sink.Healthy := ⟨by decide, by decide, rfl, rfl⟩
  have hclamp : max 1 (min ({ maxChunkLen := 88 } : Config).rekeyInterval.toNat
        Config.maxRekeyInterval.toNat) =
      max 1 (min ({} : Config).rekeyInterval.toNat Config.maxRekeyInterval.toNat) := rfl
  have hlimit : ({ maxChunkLen := 88 } : Config).maxChunkLen ≤ ({} : Config).maxChunkLen := by
    decide
  obtain ⟨_, hlocked⟩ := hsuits.locked (List.cons_ne_nil 97 []) (by decide)
    (rfl : (Argon2.Costs.mk 8 1 1).check = .ok ()) hsalt hdraw hclamp hlimit hsource rfl hsink
  obtain ⟨-, hone, -⟩ := first_line_is_the_password [97] [97, 13, 10]
  obtain ⟨hopens, -⟩ := (hone hfirst hbehind hbehind').opens _ _ hparse hparse'
  obtain ⟨plaintext, written, hrest, hcontents, -, hdecrypt⟩ :=
    hopens _ _ _ _ _ _ _ hlocked.encrypted hclamp hlimit
  have hlen := congrArg List.length hrest
  rw [List.length_append] at hlen
  have hthree : threeBytes.source.rest.length = 3 := rfl
  have hshort : plaintext.length < UInt64.size := by
    simp only [UInt64.size]
    omega
  have hback : (Source.ofBytes written).rest = written ++ [] := (List.append_nil _).symm
  refine ⟨hfirst, hbehind, hbehind', hparse, hparse', written, hcontents, ?_⟩
  exact (hdecrypt hshort ⟨.ofBytes written, {}⟩ [] (Source.healthy_ofBytes _) hback
    Sink.healthy_empty).1

/-- **Further lines count as well:** with an empty first line a file is refused alone, and accepted
with another line behind. -/
theorem first_line_is_not_the_password :
    ¬∀ contents contents' : Bytes, firstLine contents = firstLine contents' →
      Interchangeable contents contents' := by
  intro h
  obtain ⟨password, hparse⟩ := (h [10, 97] [] rfl).accepted.mp ⟨[10, 97], rfl⟩
  cases hparse

end Pipe

end AeadStream
