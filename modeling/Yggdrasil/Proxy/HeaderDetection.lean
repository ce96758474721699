import Yggdrasil.Foundation.StdAddr
import Yggdrasil.Proxy.ClientAddress

/-!
# Streams without a header

The reader decides by the first byte which signature to expect and then reads
that signature at its full length.  A stream that departs from the signature is
handed back whole, unless it ends before the signature would.
-/

namespace Yggdrasil.Proxy

open Foundation Ratatoskr

def v1Sig : Bytes := asciiBytes "PROXY "

/-- No header, and no stream that could still become one. -/
structure Headerless (stream : Bytes) : Prop where
  v1 : ¬v1Sig <+: stream
  v2 : ¬v2Sig <+: stream
  startOfV1 : ¬stream <+: v1Sig
  startOfV2 : ¬stream <+: v2Sig

/-- The stream reaches the length of the signature its first byte hints at. -/
def Detectable (stream : Bytes) : Prop :=
  (stream.head? = some 0x50 → v1Sig.length ≤ stream.length) ∧
    (stream.head? = some 0x0D → v2Sig.length ≤ stream.length)

variable {stream : Bytes}

theorem readExact_of_le {count : Nat} (h : count ≤ stream.length) :
    readExact count stream = .ok (stream.take count, stream.drop count) := if_pos h

theorem readExact_of_lt {count : Nat} (h : stream.length < count) :
    readExact count stream = .error .unexpectedEof := if_neg (Nat.not_le.2 h)

theorem prefix_of_take_eq {sig : Bytes} (h : stream.take sig.length = sig) : sig <+: stream := by
  rw [← h]
  exact List.take_prefix _ _

section

variable (text : AddrText)

variable {stream : Bytes}

theorem decodeV1_lookalike (hsig : ¬v1Sig <+: 0x50 :: stream) :
    decodeV1 text 0x50 stream =
      if 5 ≤ stream.length then .ok (⟨none, 0x50 :: stream.take 5⟩, stream.drop 5)
      else .error .unexpectedEof := by
  have htail : stream.take 5 ≠ asciiBytes "ROXY " := by
    intro h
    apply hsig
    apply prefix_of_take_eq
    change 0x50 :: stream.take 5 = _
    rw [h]
    rfl
  unfold decodeV1
  split
  next hlength =>
    rw [readExact_of_le hlength]
    exact if_pos htail
  next hlength =>
    rw [readExact_of_lt (Nat.lt_of_not_le hlength)]
    rfl

omit text in
theorem decodeV2_lookalike (hsig : ¬v2Sig <+: 0x0D :: stream) :
    decodeV2 0x0D stream =
      if 11 ≤ stream.length then .ok (⟨none, 0x0D :: stream.take 11⟩, stream.drop 11)
      else .error .unexpectedEof := by
  have hfull : 0x0D :: stream.take 11 ≠ v2Sig := fun h => hsig (prefix_of_take_eq h)
  unfold decodeV2
  split
  next hlength =>
    rw [readExact_of_le hlength]
    exact if_pos hfull
  next hlength =>
    rw [readExact_of_lt (Nat.lt_of_not_le hlength)]
    rfl

theorem readOptionalHeader_detectable (hv1 : ¬v1Sig <+: stream) (hv2 : ¬v2Sig <+: stream)
    (h : Detectable stream) :
    ∃ leftover rest, readOptionalHeader text stream = .ok (⟨none, leftover⟩, rest) ∧
      leftover ++ rest = stream := by
  cases stream with
  | nil => exact ⟨[], [], rfl, rfl⟩
  | cons first stream =>
      by_cases hP : first = 0x50
      · subst hP
        have hlength : 5 ≤ stream.length := Nat.le_of_succ_le_succ (h.1 rfl)
        refine ⟨0x50 :: stream.take 5, stream.drop 5, ?_, by simp⟩
        exact (decodeV1_lookalike text hv1).trans (if_pos hlength)
      · by_cases hCr : first = 0x0D
        · subst hCr
          have hlength : 11 ≤ stream.length := Nat.le_of_succ_le_succ (h.2 rfl)
          refine ⟨0x0D :: stream.take 11, stream.drop 11, ?_, by simp⟩
          exact (decodeV2_lookalike hv2).trans (if_pos hlength)
        · refine ⟨[first], stream, ?_, rfl⟩
          have hP' : first.toNat ≠ 'P'.toNat := fun h => hP (UInt8.toNat_inj.1 h)
          have hCr' : first.toNat ≠ 0x0D := fun h => hCr (UInt8.toNat_inj.1 h)
          rw [readOptionalHeader, if_neg hP', if_neg hCr']

theorem readOptionalHeader_cut (hv1 : ¬v1Sig <+: stream) (hv2 : ¬v2Sig <+: stream)
    (h : ¬Detectable stream) : readOptionalHeader text stream = .error .unexpectedEof := by
  cases stream with
  | nil => exact absurd ⟨nofun, nofun⟩ h
  | cons first stream =>
      by_cases hP : first = 0x50
      · subst hP
        refine (decodeV1_lookalike text hv1).trans (if_neg fun hlength => h ⟨fun _ => ?_, nofun⟩)
        exact Nat.succ_le_succ hlength
      · by_cases hCr : first = 0x0D
        · subst hCr
          refine (decodeV2_lookalike hv2).trans (if_neg fun hlength => h ⟨nofun, fun _ => ?_⟩)
          exact Nat.succ_le_succ hlength
        · refine absurd ⟨fun hhead => ?_, fun hhead => ?_⟩ h
          · exact absurd (Option.some.inj hhead) hP
          · exact absurd (Option.some.inj hhead) hCr

end

/--
A stream without a header keeps all its bytes exactly when it reaches the length
of the signature its first byte hints at.
-/
theorem headerless_kept_iff (text : AddrText) {stream : Bytes} (h : Headerless stream) :
    (∃ leftover rest, readOptionalHeader text stream = .ok (⟨none, leftover⟩, rest) ∧
      leftover ++ rest = stream) ↔
      (stream.head? = some 0x50 → 6 ≤ stream.length) ∧
        (stream.head? = some 0x0D → 12 ≤ stream.length) := by
  constructor
  · rintro ⟨leftover, rest, hread, -⟩
    by_contra hshort
    rw [readOptionalHeader_cut text h.v1 h.v2 hshort] at hread
    cases hread
  · exact readOptionalHeader_detectable text h.v1 h.v2

theorem headerless_kept_post :
    ∃ leftover rest, readOptionalHeader .std (asciiBytes "POST /") = .ok (⟨none, leftover⟩, rest) ∧
      leftover ++ rest = asciiBytes "POST /" :=
  (headerless_kept_iff .std ⟨by decide, by decide, by decide, by decide⟩).2 (by decide)

/-- A short message that begins like the first signature closes the connection. -/
theorem short_lookalike_lost :
    Headerless (asciiBytes "PING\n") ∧
      readOptionalHeader .std (asciiBytes "PING\n") = .error .unexpectedEof :=
  ⟨⟨by decide, by decide, by decide, by decide⟩, rfl⟩

end Yggdrasil.Proxy
