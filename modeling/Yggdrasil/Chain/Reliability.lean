import Yggdrasil.Foundation.Log
import Yggdrasil.Ratatoskr.ControlFrame

/-!
# The reliability layer of the control channel

One `ControlChannel` lives as long as one Noise session.  It numbers outbound
envelopes, retransmits them with exponential backoff until they are acked or
given up, and filters inbound envelopes through a bounded dedup window.  Time is
in milliseconds.  The type parameter stands for the caller's completion handle.
-/

namespace Yggdrasil.Chain

open Foundation Ratatoskr

def retxInitial : Nat := 200
def retxMax : Nat := 2000
def retxMaxAttempts : Nat := 5
def dedupWindow : Nat := 256

inductive SendError where
  | timeout (attempts : Nat)
  | rejected (code : UInt16)
  | unknownBodyType
  | channelClosed
  deriving DecidableEq, Repr

abbrev SendResult := Except SendError Unit

def SendResult.ofStatus : AckStatus → SendResult
  | .ok => .ok ()
  | .reject code => .error (.rejected code)
  | .unknown => .error .unknownBodyType

structure OutboundEntry (ω : Type) where
  envelope : ControlEnvelope
  /-- Emissions so far, the first one included. -/
  attempts : Nat
  nextSendAt : Nat
  completion : ω
  deriving DecidableEq, Repr

def OutboundEntry.seq {ω : Type} (entry : OutboundEntry ω) : UInt32 := entry.envelope.seq

def backoffFor (attempts : Nat) : Nat :=
  min (retxInitial * 2 ^ min (attempts - 1) 8) retxMax

inductive Due (ω : Type) where
  | waiting
  | timedOut
  | resend (entry : OutboundEntry ω)

def OutboundEntry.due {ω : Type} (now : Nat) (entry : OutboundEntry ω) : Due ω :=
  if now < entry.nextSendAt then .waiting
  else if retxMaxAttempts ≤ entry.attempts then .timedOut
  else .resend { entry with
    attempts := entry.attempts + 1
    nextSendAt := now + backoffFor (entry.attempts + 1) }

def OutboundEntry.kept {ω : Type} (now : Nat) (entry : OutboundEntry ω) :
    Option (OutboundEntry ω) :=
  match entry.due now with
  | .waiting => some entry
  | .timedOut => none
  | .resend entry => some entry

def OutboundEntry.resent {ω : Type} (now : Nat) (entry : OutboundEntry ω) :
    Option ControlEnvelope :=
  match entry.due now with
  | .resend entry => some entry.envelope
  | _ => none

def OutboundEntry.expired {ω : Type} (now : Nat) (entry : OutboundEntry ω) :
    Option (OutboundEntry ω × SendResult) :=
  match entry.due now with
  | .timedOut => some (entry, .error (.timeout retxMaxAttempts))
  | _ => none

variable {now : Nat}

theorem OutboundEntry.same_of_kept {ω : Type} {entry entry' : OutboundEntry ω}
    (h : entry.kept now = some entry') :
    entry'.envelope = entry.envelope ∧ entry'.completion = entry.completion := by
  unfold OutboundEntry.kept OutboundEntry.due at h
  split_ifs at h
  · simp only [Option.some.injEq] at h
    rw [h]
    exact ⟨rfl, rfl⟩
  · simp only [Option.some.injEq] at h
    rw [← h]
    exact ⟨rfl, rfl⟩

theorem OutboundEntry.envelope_of_resent {ω : Type} {entry : OutboundEntry ω}
    {envelope : ControlEnvelope} (h : entry.resent now = some envelope) :
    entry.envelope = envelope := by
  unfold OutboundEntry.resent OutboundEntry.due at h
  split_ifs at h
  simpa using h

theorem OutboundEntry.eq_of_expired {ω : Type} {entry : OutboundEntry ω}
    {notice : OutboundEntry ω × SendResult} (h : entry.expired now = some notice) :
    notice = (entry, .error (.timeout retxMaxAttempts)) := by
  unfold OutboundEntry.expired OutboundEntry.due at h
  split_ifs at h
  simpa using h.symm

structure DedupWindow where
  seen : List UInt32
  cap : Nat
  deriving DecidableEq, Repr

namespace DedupWindow

def new (cap : Nat) : DedupWindow := ⟨[], cap⟩

def contains (window : DedupWindow) (seq : UInt32) : Bool :=
  window.seen.any (· == seq)

def insert (window : DedupWindow) (seq : UInt32) : DedupWindow :=
  if window.contains seq then window
  else { window with seen := pushWindow window.cap window.seen seq }

theorem contains_iff (window : DedupWindow) (seq : UInt32) :
    window.contains seq = true ↔ seq ∈ window.seen := by
  simp [contains]

end DedupWindow

/-- The outbound queue is keyed by seq and holds only numbers already given out. -/
structure ControlChannel (ω : Type) where
  nextSeq : UInt32
  outbound : List (OutboundEntry ω)
  dedup : DedupWindow
  sorted : outbound.Pairwise (fun earlier later => earlier.seq < later.seq)
  below : ∀ entry ∈ outbound, entry.seq < nextSeq

inductive InboundDisposition where
  | deliver (envelope : ControlEnvelope)
  | duplicate
  deriving DecidableEq, Repr

namespace ControlChannel

variable {ω : Type}

def new : ControlChannel ω where
  nextSeq := 1
  outbound := []
  dedup := .new dedupWindow
  sorted := List.Pairwise.nil
  below := by simp

theorem lt_succ_of_ne_max {seq : UInt32} (h : seq ≠ 0xffffffff) : seq < seq + 1 := by
  have hne : seq.toNat ≠ 2 ^ 32 - 1 := fun heq => h (UInt32.toNat_inj.1 heq)
  have hbound := seq.toNat_lt
  rw [UInt32.lt_iff_toNat_lt, UInt32.toNat_add]
  simp
  omega

/-- `none` is the panic on an exhausted sequence space. -/
def enqueue (channel : ControlChannel ω) (bodyType : UInt8) (body : Bytes)
    (completion : ω) (now : Nat) : Option (ControlChannel ω × ControlEnvelope) :=
  if h : channel.nextSeq = 0xffffffff then none
  else
    let envelope : ControlEnvelope := ⟨channel.nextSeq, bodyType, body⟩
    some ({
      nextSeq := channel.nextSeq + 1
      outbound := channel.outbound ++ [⟨envelope, 1, now + retxInitial, completion⟩]
      dedup := channel.dedup
      sorted := by
        refine List.pairwise_append.2 ⟨channel.sorted, List.pairwise_singleton _ _, ?_⟩
        intro earlier hearlier later hlater
        rw [List.mem_singleton.1 hlater]
        exact channel.below earlier hearlier
      below := by
        intro entry hentry
        have hlt := lt_succ_of_ne_max h
        rcases List.mem_append.1 hentry with hold | hnew
        · have := channel.below entry hold
          grind
        · rw [List.mem_singleton.1 hnew]
          exact hlt }, envelope)

def nextDue (channel : ControlChannel ω) (now : Nat) :
    ControlChannel ω × List ControlEnvelope × List (OutboundEntry ω × SendResult) :=
  ({ channel with
      outbound := channel.outbound.filterMap (·.kept now)
      sorted := by
        refine channel.sorted.filterMap _ ?_
        intro first second hlt first' hfirst second' hsecond
        rw [OutboundEntry.seq, OutboundEntry.seq, (OutboundEntry.same_of_kept hfirst).1,
          (OutboundEntry.same_of_kept hsecond).1]
        exact hlt
      below := by
        intro entry hentry
        obtain ⟨old, hold, hkept⟩ := List.mem_filterMap.1 hentry
        rw [OutboundEntry.seq, (OutboundEntry.same_of_kept hkept).1]
        exact channel.below old hold },
    channel.outbound.filterMap (·.resent now),
    channel.outbound.filterMap (·.expired now))

def nextTickAt (channel : ControlChannel ω) : Option Nat :=
  (channel.outbound.map OutboundEntry.nextSendAt).min?

def remove (channel : ControlChannel ω) (seq : UInt32) : ControlChannel ω :=
  { channel with
    outbound := channel.outbound.filter (·.seq ≠ seq)
    sorted := channel.sorted.filter _
    below := fun entry hentry => channel.below entry (List.mem_of_mem_filter hentry) }

def onAck (channel : ControlChannel ω) (ack : ControlAck) :
    ControlChannel ω × Option (OutboundEntry ω × SendResult) :=
  match channel.outbound.find? (·.seq = ack.seq) with
  | none => (channel, none)
  | some entry => (channel.remove ack.seq, some (entry, .ofStatus ack.status))

def onInbound (channel : ControlChannel ω) (envelope : ControlEnvelope) :
    ControlChannel ω × InboundDisposition :=
  if channel.dedup.contains envelope.seq then (channel, .duplicate)
  else ({ channel with dedup := channel.dedup.insert envelope.seq }, .deliver envelope)

def pending (channel : ControlChannel ω) : Nat := channel.outbound.length

def abortAll (channel : ControlChannel ω) :
    ControlChannel ω × List (OutboundEntry ω × SendResult) :=
  ({ channel with
      outbound := []
      sorted := List.Pairwise.nil
      below := by simp },
    channel.outbound.map (fun entry => (entry, .error .channelClosed)))

theorem enqueue_spec {channel channel' : ControlChannel ω} {bodyType : UInt8} {body : Bytes}
    {completion : ω} {now : Nat} {envelope : ControlEnvelope}
    (h : channel.enqueue bodyType body completion now = some (channel', envelope)) :
    envelope = ⟨channel.nextSeq, bodyType, body⟩ ∧ channel.nextSeq < channel'.nextSeq ∧
      channel'.outbound =
        channel.outbound ++ [⟨envelope, 1, now + retxInitial, completion⟩] := by
  unfold enqueue at h
  split_ifs at h with hmax
  simp only [Option.some.injEq, Prod.mk.injEq] at h
  obtain ⟨rfl, rfl⟩ := h
  exact ⟨rfl, lt_succ_of_ne_max hmax, rfl⟩

theorem nextDue_spec (channel : ControlChannel ω) (now : Nat) :
    (∀ entry ∈ (channel.nextDue now).1.outbound, ∃ old ∈ channel.outbound,
      old.envelope = entry.envelope ∧ old.completion = entry.completion) ∧
    (∀ envelope ∈ (channel.nextDue now).2.1,
      ∃ old ∈ channel.outbound, old.envelope = envelope) ∧
    (∀ notice ∈ (channel.nextDue now).2.2, notice.1 ∈ channel.outbound ∧
      notice.2 = .error (.timeout retxMaxAttempts)) := by
  refine ⟨fun entry hentry => ?_, fun envelope henvelope => ?_, fun notice hnotice => ?_⟩
  · obtain ⟨old, hold, hkept⟩ := List.mem_filterMap.1 hentry
    obtain ⟨henvelope, hcompletion⟩ := OutboundEntry.same_of_kept hkept
    exact ⟨old, hold, henvelope.symm, hcompletion.symm⟩
  · obtain ⟨old, hold, hresent⟩ := List.mem_filterMap.1 henvelope
    exact ⟨old, hold, OutboundEntry.envelope_of_resent hresent⟩
  · obtain ⟨old, hold, hexpired⟩ := List.mem_filterMap.1 hnotice
    rw [OutboundEntry.eq_of_expired hexpired]
    exact ⟨hold, rfl⟩

theorem onAck_spec (channel : ControlChannel ω) (ack : ControlAck) :
    (∀ entry ∈ (channel.onAck ack).1.outbound, entry ∈ channel.outbound) ∧
    (channel.onAck ack).1.nextSeq = channel.nextSeq ∧
    (∀ notice ∈ (channel.onAck ack).2.toList, notice.1 ∈ channel.outbound ∧
      notice.1.seq = ack.seq ∧ notice.2 = .ofStatus ack.status) := by
  unfold onAck
  cases hfind : channel.outbound.find? (·.seq = ack.seq) with
  | none => exact ⟨fun _ h => h, rfl, by simp⟩
  | some entry =>
      refine ⟨fun _ h => List.mem_of_mem_filter h, rfl, ?_⟩
      intro notice hnotice
      rw [List.mem_singleton.1 hnotice]
      have hseq := List.find?_some hfind
      exact ⟨List.mem_of_find?_eq_some hfind, by simpa using hseq, rfl⟩

end ControlChannel

end Yggdrasil.Chain
