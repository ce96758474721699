import Yggdrasil.Chain.Reliability
import Yggdrasil.Foundation.Keyed
import Yggdrasil.Foundation.Run

/-!
# Completion accounting of the control channel

A ledger stands beside the channel and records what was issued, every emission
with its time, and every completion that was resolved.  Entries leave the
outbound queue by an ack, a timeout or an abort; the books balance after every
operation, whatever the order of the operations and of the times.
-/

namespace Yggdrasil.Chain

open Foundation Ratatoskr

structure Emission where
  time : Nat
  envelope : ControlEnvelope
  deriving DecidableEq, Repr

def Emission.seq (emission : Emission) : UInt32 := emission.envelope.seq

abbrev Notice (ω : Type) := OutboundEntry ω × SendResult

structure Ledger (ω : Type) where
  channel : ControlChannel ω
  issued : List (ControlEnvelope × ω)
  emitted : List Emission
  resolved : List (Notice ω)

inductive ChannelOp (ω : Type) where
  | enqueue (bodyType : UInt8) (body : Bytes) (completion : ω) (now : Nat)
  | nextDue (now : Nat)
  | onAck (ack : ControlAck)
  | onInbound (envelope : ControlEnvelope)
  | abortAll

def ChannelOp.isEnqueue {ω : Type} : ChannelOp ω → Bool
  | enqueue .. => true
  | _ => false

def OutboundEntry.ticket {ω : Type} (entry : OutboundEntry ω) : ControlEnvelope × ω :=
  (entry.envelope, entry.completion)

namespace Ledger

variable {ω : Type} {ledger : Ledger ω}

def start : Ledger ω := ⟨.new, [], [], []⟩

def resolve (ledger : Ledger ω) (channel : ControlChannel ω) (notices : List (Notice ω)) :
    Ledger ω :=
  { ledger with
    channel := channel
    resolved := ledger.resolved ++ notices }

def abortAll (ledger : Ledger ω) : Ledger ω :=
  let (channel, notices) := ledger.channel.abortAll
  ledger.resolve channel notices

def drop (ledger : Ledger ω) : Ledger ω := ledger.abortAll

/-- The envelope returned by an enqueue is emitted by the caller at once. -/
def issue (ledger : Ledger ω) (channel : ControlChannel ω) (envelope : ControlEnvelope)
    (completion : ω) (now : Nat) : Ledger ω :=
  { ledger with
    channel := channel
    issued := ledger.issued ++ [(envelope, completion)]
    emitted := ledger.emitted ++ [⟨now, envelope⟩] }

def retransmit (ledger : Ledger ω) (now : Nat) : Ledger ω :=
  let (channel, due, expired) := ledger.channel.nextDue now
  { ledger with
    channel := channel
    emitted := ledger.emitted ++ due.map (Emission.mk now)
    resolved := ledger.resolved ++ expired }

def step (ledger : Ledger ω) : ChannelOp ω → Option (Ledger ω)
  | .enqueue bodyType body completion now => do
      let (channel, envelope) ← ledger.channel.enqueue bodyType body completion now
      some (ledger.issue channel envelope completion now)
  | .nextDue now => some (ledger.retransmit now)
  | .onAck ack =>
      let (channel, notice) := ledger.channel.onAck ack
      some (ledger.resolve channel notice.toList)
  | .onInbound envelope => some (ledger.resolve (ledger.channel.onInbound envelope).1 [])
  | .abortAll => some ledger.abortAll

def sent (ledger : Ledger ω) (seq : UInt32) : List Nat :=
  (ledger.emitted.filter (fun emission => emission.seq = seq)).map Emission.time

def deadline (ledger : Ledger ω) (seq : UInt32) : Option Nat :=
  (ledger.sent seq).getLast?.map (· + backoffFor (ledger.sent seq).length)

/-- A pending entry agrees with the record of its emissions. -/
structure Tracked (ledger : Ledger ω) (entry : OutboundEntry ω) : Prop where
  attempts : (ledger.sent entry.seq).length = entry.attempts
  deadline : ledger.deadline entry.seq = some entry.nextSendAt
  budget : entry.attempts ≤ retxMaxAttempts

structure Balanced (ledger : Ledger ω) : Prop where
  settled : (ledger.channel.outbound.map OutboundEntry.ticket ++
    ledger.resolved.map (fun notice => notice.1.ticket)).Perm ledger.issued
  increasing : ledger.issued.Pairwise (fun earlier later => earlier.1.seq < later.1.seq)
  numbered : ledger.channel.nextSeq.toNat = ledger.issued.length + 1
  below : ∀ ticket ∈ ledger.issued, ticket.1.seq < ledger.channel.nextSeq
  known : ∀ emission ∈ ledger.emitted, emission.envelope ∈ ledger.issued.map Prod.fst
  tracked : ∀ entry ∈ ledger.channel.outbound, ledger.Tracked entry
  bounded : ∀ seq, (ledger.sent seq).length ≤ retxMaxAttempts
  timedOut : ∀ notice ∈ ledger.resolved, ∀ attempts, notice.2 = .error (.timeout attempts) →
    attempts = retxMaxAttempts ∧ (ledger.sent notice.1.seq).length = retxMaxAttempts

theorem balanced_start : Balanced (start : Ledger ω) where
  settled := List.Perm.refl _
  increasing := List.Pairwise.nil
  numbered := rfl
  below := by simp [start]
  known := by simp [start]
  tracked := by simp [start, ControlChannel.new]
  bounded := by simp [start, sent]
  timedOut := by simp [start]

theorem balanced_resolve (hbalanced : Balanced ledger)
    {channel : ControlChannel ω} {notices : List (Notice ω)}
    (hnext : channel.nextSeq = ledger.channel.nextSeq)
    (hmoved : (channel.outbound.map OutboundEntry.ticket ++
      notices.map (fun notice => notice.1.ticket)).Perm
        (ledger.channel.outbound.map OutboundEntry.ticket))
    (hkept : ∀ entry ∈ channel.outbound, entry ∈ ledger.channel.outbound)
    (houtcome : ∀ notice ∈ notices, ∀ attempts, notice.2 ≠ .error (.timeout attempts)) :
    Balanced (ledger.resolve channel notices) where
  settled := by
    simp only [resolve, List.map_append]
    refine List.Perm.trans ?_ hbalanced.settled
    refine List.Perm.trans ?_ (hmoved.append_right _)
    rw [List.append_assoc]
    exact List.perm_append_comm.append_left _
  increasing := hbalanced.increasing
  numbered := by
    simp only [resolve, hnext]
    exact hbalanced.numbered
  below := by
    simp only [resolve, hnext]
    exact hbalanced.below
  known := hbalanced.known
  tracked := by
    intro entry hentry
    obtain ⟨hattempts, hdeadline, hbudget⟩ := hbalanced.tracked entry (hkept entry hentry)
    exact ⟨hattempts, hdeadline, hbudget⟩
  bounded := hbalanced.bounded
  timedOut := by
    intro notice hnotice attempts hattempts
    rcases List.mem_append.1 hnotice with hold | hnew
    · exact hbalanced.timedOut notice hold attempts hattempts
    · exact absurd hattempts (houtcome notice hnew attempts)

/-! ## Abort and ack -/

theorem balanced_abortAll (hbalanced : Balanced ledger) :
    Balanced ledger.abortAll := by
  refine balanced_resolve hbalanced ?_ ?_ ?_ ?_
  · rfl
  · simp [Function.comp_def]
  · simp
  · intro notice hnotice attempts
    obtain ⟨entry, -, rfl⟩ := List.mem_map.1 hnotice
    simp

theorem seqs_nodup (channel : ControlChannel ω) :
    (channel.outbound.map OutboundEntry.seq).Nodup := by
  rw [List.Nodup, List.pairwise_map]
  refine channel.sorted.imp ?_
  intro earlier later hlt heq
  rw [heq] at hlt
  exact absurd hlt (UInt32.lt_irrefl _)

variable {entry : OutboundEntry ω} {next : Ledger ω} {now : Nat}

theorem perm_filter_seq {entries : List (OutboundEntry ω)}
    (hnodup : (entries.map OutboundEntry.seq).Nodup) (hentry : entry ∈ entries) :
    (entries.filter (fun other => other.seq ≠ entry.seq) ++ [entry]).Perm entries := by
  have hone : entries.filter (fun other => other.seq = entry.seq) = [entry] := by
    have h : (entries.filterMap some).filter (fun other => other.seq = entry.seq) = [entry] :=
      filter_filterMap_of_mem OutboundEntry.seq
        (fun item result hresult => by rw [Option.some.inj hresult]) hnodup hentry
    rwa [List.filterMap_some] at h
  have hsplit := List.filter_append_perm (fun other => decide (other.seq = entry.seq)) entries
  rw [hone] at hsplit
  refine List.Perm.trans List.perm_append_comm ?_
  simpa using hsplit

theorem onAck_cases (channel : ControlChannel ω) (ack : ControlAck) :
    channel.onAck ack = (channel, none) ∨
      ∃ entry ∈ channel.outbound, entry.seq = ack.seq ∧
        channel.onAck ack = (channel.remove ack.seq, some (entry, .ofStatus ack.status)) := by
  unfold ControlChannel.onAck
  cases hfind : channel.outbound.find? (·.seq = ack.seq) with
  | none => exact .inl rfl
  | some entry =>
      have hseq := List.find?_some hfind
      exact .inr ⟨entry, List.mem_of_find?_eq_some hfind, by simpa using hseq, rfl⟩

theorem ofStatus_ne_timeout (status : AckStatus) (attempts : Nat) :
    SendResult.ofStatus status ≠ .error (.timeout attempts) := by
  cases status <;> simp [SendResult.ofStatus]

theorem balanced_onAck {ack : ControlAck} (hbalanced : Balanced ledger)
    (hstep : ledger.step (.onAck ack) = some next) : Balanced next := by
  simp only [step, Option.some.injEq] at hstep
  rcases onAck_cases ledger.channel ack with hnone | ⟨entry, hentry, hseq, hsome⟩
  · rw [← hstep, hnone]
    apply balanced_resolve hbalanced rfl <;> simp
  · rw [← hstep, hsome]
    refine balanced_resolve hbalanced ?_ ?_ ?_ ?_
    · rfl
    · have hperm := perm_filter_seq (seqs_nodup ledger.channel) hentry
      rw [hseq] at hperm
      simpa [ControlChannel.remove] using hperm.map OutboundEntry.ticket
    · intro other hother
      exact List.mem_of_mem_filter hother
    · intro notice hnotice attempts
      simp only [Option.toList_some, List.mem_singleton] at hnotice
      rw [hnotice]
      exact ofStatus_ne_timeout ack.status attempts

theorem balanced_onInbound {envelope : ControlEnvelope}
    (hbalanced : Balanced ledger) (hstep : ledger.step (.onInbound envelope) = some next) :
    Balanced next := by
  simp only [step, Option.some.injEq] at hstep
  have hqueue : (ledger.channel.onInbound envelope).1.outbound = ledger.channel.outbound ∧
      (ledger.channel.onInbound envelope).1.nextSeq = ledger.channel.nextSeq := by
    unfold ControlChannel.onInbound
    split <;> exact ⟨rfl, rfl⟩
  rw [← hstep]
  apply balanced_resolve hbalanced hqueue.2
  · simp [hqueue.1]
  · simp [hqueue.1]
  · simp

theorem seq_mem_issued (hbalanced : Balanced ledger) {emission : Emission}
    (hemission : emission ∈ ledger.emitted) :
    emission.seq < ledger.channel.nextSeq := by
  obtain ⟨ticket, hticket, henvelope⟩ := List.mem_map.1 (hbalanced.known emission hemission)
  rw [Emission.seq, ← henvelope]
  exact hbalanced.below ticket hticket

theorem sent_fresh (hbalanced : Balanced ledger) :
    ledger.sent ledger.channel.nextSeq = [] := by
  unfold sent
  rw [List.map_eq_nil_iff, List.filter_eq_nil_iff]
  intro emission hemission hseq
  have hlt := seq_mem_issued hbalanced hemission
  rw [of_decide_eq_true hseq] at hlt
  exact absurd hlt (UInt32.lt_irrefl _)

theorem enqueue_next {channel channel' : ControlChannel ω} {bodyType : UInt8} {body : Bytes}
    {completion : ω} {envelope : ControlEnvelope}
    (h : channel.enqueue bodyType body completion now = some (channel', envelope)) :
    channel'.nextSeq.toNat = channel.nextSeq.toNat + 1 := by
  unfold ControlChannel.enqueue at h
  split_ifs at h with hmax
  simp only [Option.some.injEq, Prod.mk.injEq] at h
  rw [← h.1]
  have hne : channel.nextSeq.toNat ≠ 2 ^ 32 - 1 := fun heq => hmax (UInt32.toNat_inj.1 heq)
  have hbound := channel.nextSeq.toNat_lt
  rw [UInt32.toNat_add]
  simp
  omega

section

variable {channel : ControlChannel ω} {envelope : ControlEnvelope}
  {completion : ω} {now : Nat}

theorem sent_issue_fresh (hbalanced : Balanced ledger)
    (hseq : envelope.seq = ledger.channel.nextSeq) :
    (ledger.issue channel envelope completion now).sent envelope.seq = [now] := by
  have hfresh := sent_fresh hbalanced
  unfold sent at hfresh ⊢
  rw [← hseq] at hfresh
  rw [issue, List.filter_append, List.map_append, hfresh]
  simp [Emission.seq]

theorem sent_issue_of_ne {seq : UInt32} (hne : seq ≠ envelope.seq) :
    (ledger.issue channel envelope completion now).sent seq = ledger.sent seq := by
  unfold sent issue
  rw [List.filter_append]
  simp [Emission.seq, Ne.symm hne]

theorem tracked_issue_of_ne {entry : OutboundEntry ω} (hne : entry.seq ≠ envelope.seq)
    (htracked : ledger.Tracked entry) :
    (ledger.issue channel envelope completion now).Tracked entry where
  attempts := by
    rw [sent_issue_of_ne hne]
    exact htracked.attempts
  deadline := by
    unfold deadline
    rw [sent_issue_of_ne hne]
    exact htracked.deadline
  budget := htracked.budget

theorem tracked_issue_fresh (hbalanced : Balanced ledger)
    (hseq : envelope.seq = ledger.channel.nextSeq) :
    (ledger.issue channel envelope completion now).Tracked
      ⟨envelope, 1, now + retxInitial, completion⟩ where
  attempts := by
    rw [OutboundEntry.seq, sent_issue_fresh hbalanced hseq]
    rfl
  deadline := by
    rw [OutboundEntry.seq, deadline, sent_issue_fresh hbalanced hseq]
    rfl
  budget := Nat.le_of_ble_eq_true rfl

end

theorem balanced_enqueue {bodyType : UInt8} {body : Bytes} {completion : ω}
    (hbalanced : Balanced ledger)
    (hstep : ledger.step (.enqueue bodyType body completion now) = some next) : Balanced next := by
  simp only [step, Option.bind_eq_bind, Option.bind_eq_some_iff, Option.some.injEq] at hstep
  obtain ⟨⟨channel, envelope⟩, henqueue, hnext⟩ := hstep
  obtain ⟨henvelope, hgrew, houtbound⟩ := ControlChannel.enqueue_spec henqueue
  have hseq : envelope.seq = ledger.channel.nextSeq := by rw [henvelope]
  have hused : ∀ seq, seq < ledger.channel.nextSeq → seq ≠ envelope.seq := by
    intro seq hlt heq
    rw [heq, hseq] at hlt
    exact absurd hlt (UInt32.lt_irrefl _)
  rw [← hnext]
  constructor
  case settled =>
    simp only [issue, houtbound, List.map_append, List.map_cons, List.map_nil,
      OutboundEntry.ticket]
    rw [List.append_assoc]
    refine List.Perm.trans (List.perm_append_comm.append_left _) ?_
    rw [← List.append_assoc]
    exact hbalanced.settled.append_right _
  case increasing =>
    refine pairwise_concat hbalanced.increasing ?_
    intro earlier hearlier
    rw [hseq]
    exact hbalanced.below earlier hearlier
  case numbered =>
    have hnumber := enqueue_next henqueue
    have hnumbered := hbalanced.numbered
    simp only [issue, List.length_append, List.length_singleton]
    omega
  case below =>
    intro ticket hticket
    rcases List.mem_append.1 hticket with hmem | hnew
    · have hlt := hbalanced.below ticket hmem
      simp only [issue]
      grind
    · rw [List.mem_singleton.1 hnew, hseq]
      exact hgrew
  case known =>
    intro emission hemission
    simp only [issue, List.map_append]
    rcases List.mem_append.1 hemission with hmem | hnew
    · exact List.mem_append_left _ (hbalanced.known emission hmem)
    · rw [List.mem_singleton.1 hnew]
      exact List.mem_append_right _ (by simp)
  case tracked =>
    intro entry hentry
    simp only [issue, houtbound] at hentry
    rcases List.mem_append.1 hentry with hmem | hnew
    · exact tracked_issue_of_ne (hused _ (ledger.channel.below entry hmem))
        (hbalanced.tracked entry hmem)
    · rw [List.mem_singleton.1 hnew]
      exact tracked_issue_fresh hbalanced hseq
  case bounded =>
    intro seq
    by_cases heq : seq = envelope.seq
    · rw [heq, sent_issue_fresh hbalanced hseq]
      exact Nat.le_of_ble_eq_true rfl
    · rw [sent_issue_of_ne heq]
      exact hbalanced.bounded seq
  case timedOut =>
    intro notice hnotice attempts hattempts
    have hticket : notice.1.ticket ∈ ledger.issued :=
      hbalanced.settled.subset (List.mem_append_right _ (List.mem_map_of_mem hnotice))
    have hbelow : notice.1.seq < ledger.channel.nextSeq := hbalanced.below _ hticket
    rw [sent_issue_of_ne (hused _ hbelow)]
    exact hbalanced.timedOut notice hnotice attempts hattempts

/-! ## Retransmission and timeout -/

theorem due_cases (now : Nat) (entry : OutboundEntry ω) :
    (entry.kept now = some entry ∧ entry.resent now = none ∧ entry.expired now = none) ∨
    (entry.nextSendAt ≤ now ∧ retxMaxAttempts ≤ entry.attempts ∧ entry.kept now = none ∧
      entry.resent now = none ∧
      entry.expired now = some (entry, .error (.timeout retxMaxAttempts))) ∨
    (entry.nextSendAt ≤ now ∧ entry.attempts < retxMaxAttempts ∧
      entry.kept now = some { entry with
        attempts := entry.attempts + 1
        nextSendAt := now + backoffFor (entry.attempts + 1) } ∧
      entry.resent now = some entry.envelope ∧ entry.expired now = none) := by
  unfold OutboundEntry.kept OutboundEntry.resent OutboundEntry.expired OutboundEntry.due
  by_cases hwaiting : now < entry.nextSendAt
  · left
    rw [if_pos hwaiting]
    exact ⟨rfl, rfl, rfl⟩
  · right
    rw [if_neg hwaiting]
    by_cases hspent : retxMaxAttempts ≤ entry.attempts
    · left
      rw [if_pos hspent]
      exact ⟨Nat.le_of_not_lt hwaiting, hspent, rfl, rfl, rfl⟩
    · right
      rw [if_neg hspent]
      exact ⟨Nat.le_of_not_lt hwaiting, Nat.lt_of_not_le hspent, rfl, rfl, rfl⟩

theorem perm_kept_expired (now : Nat) (entries : List (OutboundEntry ω)) :
    ((entries.filterMap (·.kept now)).map OutboundEntry.ticket ++
      (entries.filterMap (·.expired now)).map (fun notice => notice.1.ticket)).Perm
        (entries.map OutboundEntry.ticket) := by
  induction entries with
  | nil => exact List.Perm.refl _
  | cons entry rest ih =>
      rcases due_cases now entry with
        ⟨hkept, -, hexpired⟩ | ⟨-, -, hkept, -, hexpired⟩ | ⟨-, -, hkept, -, hexpired⟩
      · rw [List.filterMap_cons_some hkept, List.filterMap_cons_none hexpired]
        exact ih.cons _
      · rw [List.filterMap_cons_none hkept, List.filterMap_cons_some hexpired]
        exact List.perm_middle.trans (ih.cons _)
      · rw [List.filterMap_cons_some hkept, List.filterMap_cons_none hexpired]
        exact ih.cons _

theorem sent_retransmit (ledger : Ledger ω) (now : Nat) (seq : UInt32) :
    (ledger.retransmit now).sent seq = ledger.sent seq ++
      ((ledger.channel.outbound.filterMap (·.resent now)).filter
        (fun envelope => envelope.seq = seq)).map (fun _ => now) := by
  unfold sent
  simp only [retransmit, ControlChannel.nextDue, List.filter_append, List.map_append,
    List.filter_map, List.map_map]
  rfl

theorem seq_of_resent (entry : OutboundEntry ω) (envelope : ControlEnvelope)
    (h : entry.resent now = some envelope) : envelope.seq = entry.seq := by
  rw [OutboundEntry.seq, OutboundEntry.envelope_of_resent h]

theorem sent_retransmit_of_mem (hentry : entry ∈ ledger.channel.outbound)
    (now : Nat) :
    (ledger.retransmit now).sent entry.seq =
      ledger.sent entry.seq ++ (entry.resent now).toList.map (fun _ => now) := by
  rw [sent_retransmit, filter_filterMap_of_mem OutboundEntry.seq seq_of_resent
    (seqs_nodup ledger.channel) hentry]

theorem sent_retransmit_of_notMem {seq : UInt32}
    (hseq : seq ∉ ledger.channel.outbound.map OutboundEntry.seq) (now : Nat) :
    (ledger.retransmit now).sent seq = ledger.sent seq := by
  rw [sent_retransmit, filter_filterMap_of_notMem OutboundEntry.seq seq_of_resent hseq,
    List.map_nil, List.append_nil]

theorem tracked_retransmit {kept : OutboundEntry ω}
    (hentry : entry ∈ ledger.channel.outbound) (htracked : ledger.Tracked entry)
    (hkept : entry.kept now = some kept) : (ledger.retransmit now).Tracked kept := by
  have hsent := sent_retransmit_of_mem hentry now
  rcases due_cases now entry with
    ⟨hsame, hresent, -⟩ | ⟨-, -, hgone, -⟩ | ⟨-, hbudget, hnext, hresent, -⟩
  · rw [hsame] at hkept
    cases hkept
    rw [hresent, Option.toList_none, List.map_nil, List.append_nil] at hsent
    refine ⟨?_, ?_, htracked.budget⟩
    · rw [hsent]
      exact htracked.attempts
    · unfold deadline
      rw [hsent]
      exact htracked.deadline
  · cases hgone.symm.trans hkept
  · rw [hnext] at hkept
    cases hkept
    rw [hresent, Option.toList_some, List.map_singleton] at hsent
    have hattempts := htracked.attempts
    refine ⟨?_, ?_, hbudget⟩
    · change ((ledger.retransmit now).sent entry.seq).length = entry.attempts + 1
      rw [hsent, List.length_append, hattempts]
      rfl
    · change (ledger.retransmit now).deadline entry.seq = _
      unfold deadline
      rw [hsent, List.length_append, hattempts]
      simp

theorem pending_resolved_disjoint (hbalanced : Balanced ledger)
    {notice : Notice ω} (hnotice : notice ∈ ledger.resolved) :
    notice.1.seq ∉ ledger.channel.outbound.map OutboundEntry.seq := by
  intro hpending
  obtain ⟨entry, hentry, hseq⟩ := List.mem_map.1 hpending
  have hnodup : ((ledger.channel.outbound.map OutboundEntry.ticket ++
      ledger.resolved.map (fun notice => notice.1.ticket)).map (fun ticket => ticket.1.seq)).Nodup := by
    rw [(hbalanced.settled.map _).nodup_iff, List.Nodup, List.pairwise_map]
    refine hbalanced.increasing.imp ?_
    intro earlier later hlt heq
    rw [heq] at hlt
    exact absurd hlt (UInt32.lt_irrefl _)
  rw [List.map_append, List.map_map, List.map_map, List.nodup_append] at hnodup
  exact hnodup.2.2 _ (List.mem_map_of_mem hentry) _ (List.mem_map_of_mem hnotice) hseq

theorem length_sent_retransmit_le (hbalanced : Balanced ledger) (now : Nat)
    (seq : UInt32) : ((ledger.retransmit now).sent seq).length ≤ retxMaxAttempts := by
  by_cases hpending : seq ∈ ledger.channel.outbound.map OutboundEntry.seq
  · obtain ⟨entry, hentry, rfl⟩ := List.mem_map.1 hpending
    have htracked := hbalanced.tracked entry hentry
    rw [sent_retransmit_of_mem hentry, List.length_append, htracked.attempts]
    rcases due_cases now entry with
      ⟨-, hresent, -⟩ | ⟨-, -, -, hresent, -⟩ | ⟨-, hbudget, -, hresent, -⟩
    · simpa [hresent] using htracked.budget
    · simpa [hresent] using htracked.budget
    · simpa [hresent] using hbudget
  · rw [sent_retransmit_of_notMem hpending]
    exact hbalanced.bounded seq

theorem timedOut_retransmit (hbalanced : Balanced ledger) {notice : Notice ω}
    (hnotice : notice ∈ ledger.channel.outbound.filterMap (·.expired now)) :
    notice.2 = .error (.timeout retxMaxAttempts) ∧
      ((ledger.retransmit now).sent notice.1.seq).length = retxMaxAttempts := by
  obtain ⟨entry, hentry, hexpired⟩ := List.mem_filterMap.1 hnotice
  have htracked := hbalanced.tracked entry hentry
  rcases due_cases now entry with
    ⟨-, -, hnone⟩ | ⟨-, hspent, -, hresent, hsome⟩ | ⟨-, -, -, -, hnone⟩
  · cases hnone.symm.trans hexpired
  · rw [hsome] at hexpired
    cases hexpired
    refine ⟨rfl, ?_⟩
    rw [sent_retransmit_of_mem hentry, hresent, Option.toList_none, List.map_nil,
      List.append_nil, htracked.attempts]
    exact Nat.le_antisymm htracked.budget hspent
  · cases hnone.symm.trans hexpired

theorem balanced_retransmit (hbalanced : Balanced ledger) (now : Nat) :
    Balanced (ledger.retransmit now) where
  settled := by
    simp only [retransmit, ControlChannel.nextDue, List.map_append]
    refine List.Perm.trans ?_ hbalanced.settled
    refine List.Perm.trans ?_ ((perm_kept_expired now ledger.channel.outbound).append_right _)
    rw [List.append_assoc]
    exact List.perm_append_comm.append_left _
  increasing := hbalanced.increasing
  numbered := hbalanced.numbered
  below := hbalanced.below
  known := by
    intro emission hemission
    rcases List.mem_append.1 hemission with hold | hnew
    · exact hbalanced.known emission hold
    · obtain ⟨envelope, henvelope, rfl⟩ := List.mem_map.1 hnew
      obtain ⟨entry, hentry, hresent⟩ := List.mem_filterMap.1 henvelope
      have hticket : entry.ticket ∈ ledger.issued :=
        hbalanced.settled.subset (List.mem_append_left _ (List.mem_map_of_mem hentry))
      rw [← OutboundEntry.envelope_of_resent hresent]
      exact List.mem_map_of_mem hticket
  tracked := by
    intro kept hkept
    obtain ⟨entry, hentry, hstays⟩ := List.mem_filterMap.1 hkept
    exact tracked_retransmit hentry (hbalanced.tracked entry hentry) hstays
  bounded := length_sent_retransmit_le hbalanced now
  timedOut := by
    intro notice hnotice attempts hattempts
    rcases List.mem_append.1 hnotice with hold | hnew
    · rw [sent_retransmit_of_notMem (pending_resolved_disjoint hbalanced hold)]
      exact hbalanced.timedOut notice hold attempts hattempts
    · obtain ⟨houtcome, hsent⟩ := timedOut_retransmit hbalanced hnew
      rw [houtcome] at hattempts
      refine ⟨?_, hsent⟩
      injection hattempts with hattempts
      injection hattempts with hattempts
      exact hattempts.symm

/-! ## Every sequence of operations -/

theorem balanced_step {op : ChannelOp ω} (hbalanced : Balanced ledger)
    (hstep : ledger.step op = some next) : Balanced next := by
  cases op with
  | enqueue bodyType body completion now => exact balanced_enqueue hbalanced hstep
  | nextDue now =>
      simp only [step, Option.some.injEq] at hstep
      exact hstep ▸ balanced_retransmit hbalanced now
  | onAck ack => exact balanced_onAck hbalanced hstep
  | onInbound envelope => exact balanced_onInbound hbalanced hstep
  | abortAll =>
      simp only [step, Option.some.injEq] at hstep
      exact hstep ▸ balanced_abortAll hbalanced

theorem issued_step {op : ChannelOp ω} (hstep : ledger.step op = some next) :
    next.issued.length = ledger.issued.length + if op.isEnqueue then 1 else 0 := by
  cases op with
  | enqueue bodyType body completion now =>
      simp only [step, Option.bind_eq_bind, Option.bind_eq_some_iff, Option.some.injEq] at hstep
      obtain ⟨result, -, rfl⟩ := hstep
      simp [issue, ChannelOp.isEnqueue]
  | nextDue now =>
      simp only [step, Option.some.injEq] at hstep
      rw [← hstep]
      rfl
  | onAck ack =>
      simp only [step, Option.some.injEq] at hstep
      rw [← hstep]
      rfl
  | onInbound envelope =>
      simp only [step, Option.some.injEq] at hstep
      rw [← hstep]
      rfl
  | abortAll =>
      simp only [step, Option.some.injEq] at hstep
      rw [← hstep]
      rfl

theorem step_isSome (hbalanced : Balanced ledger) (op : ChannelOp ω)
    (hroom : ledger.issued.length + (if op.isEnqueue then 1 else 0) < 2 ^ 32 - 1) :
    ∃ next, ledger.step op = some next := by
  cases op with
  | enqueue bodyType body completion now =>
      have hnumbered := hbalanced.numbered
      have hne : ledger.channel.nextSeq ≠ 0xffffffff := by
        intro heq
        rw [heq] at hnumbered
        simp [ChannelOp.isEnqueue] at hroom hnumbered
        omega
      simp [step, ControlChannel.enqueue, hne]
  | nextDue now => exact ⟨_, rfl⟩
  | onAck ack => exact ⟨_, rfl⟩
  | onInbound envelope => exact ⟨_, rfl⟩
  | abortAll => exact ⟨_, rfl⟩

theorem run_balanced (hbalanced : Balanced ledger) (ops : List (ChannelOp ω))
    (hcount : ledger.issued.length + ops.countP ChannelOp.isEnqueue < 2 ^ 32 - 1) :
    ∃ final, run step ledger ops = some final ∧ Balanced final := by
  induction ops generalizing ledger with
  | nil => exact ⟨ledger, rfl, hbalanced⟩
  | cons op ops ih =>
      rw [List.countP_cons] at hcount
      obtain ⟨next, hstep⟩ := step_isSome hbalanced op (by omega)
      have hissued := issued_step hstep
      obtain ⟨final, hrun, hfinal⟩ := ih (balanced_step hbalanced hstep) (by omega)
      refine ⟨final, ?_, hfinal⟩
      rw [run, hstep]
      exact hrun

theorem pending_add_resolved (hbalanced : Balanced ledger) :
    ledger.channel.pending + ledger.resolved.length = ledger.issued.length := by
  have hlength := hbalanced.settled.length_eq
  simpa [ControlChannel.pending] using hlength

theorem drop_settled (hbalanced : Balanced ledger) :
    (ledger.drop.resolved.map (fun notice => notice.1.ticket)).Perm ledger.issued := by
  have hsettled := (balanced_abortAll hbalanced).settled
  exact hsettled

theorem deadline_of_due (hbalanced : Balanced ledger)
    {envelope : ControlEnvelope} (hdue : envelope ∈ (ledger.channel.nextDue now).2.1) :
    ∃ deadline, ledger.deadline envelope.seq = some deadline ∧ deadline ≤ now := by
  obtain ⟨entry, hentry, hresent⟩ := List.mem_filterMap.1 hdue
  rw [seq_of_resent entry envelope hresent]
  refine ⟨entry.nextSendAt, (hbalanced.tracked entry hentry).deadline, ?_⟩
  rcases due_cases now entry with ⟨-, hnone, -⟩ | ⟨-, -, -, hnone, -⟩ | ⟨hpassed, -⟩
  · cases hnone.symm.trans hresent
  · cases hnone.symm.trans hresent
  · exact hpassed

theorem nextTickAt_eq (hbalanced : Balanced ledger) :
    ledger.channel.nextTickAt =
      (ledger.channel.outbound.filterMap (fun entry => ledger.deadline entry.seq)).min? := by
  have hdeadlines : ledger.channel.outbound.filterMap (fun entry => ledger.deadline entry.seq) =
      ledger.channel.outbound.map OutboundEntry.nextSendAt := by
    rw [← List.filterMap_eq_map]
    apply List.filterMap_congr
    intro entry hentry
    exact (hbalanced.tracked entry hentry).deadline
  rw [hdeadlines]
  rfl

/--
After every sequence of fewer than `2 ^ 32 - 1` enqueues and any other
operations: dropping the channel leaves each completion resolved once, pending
and resolved envelopes add up to the issued ones, seqs increase, no seq is
emitted more than five times and a timeout is reported after exactly five
emissions, only due envelopes are emitted again, and the next tick is the
earliest deadline.
-/
theorem completion_accounting (ops : List (ChannelOp ω))
    (hcount : ops.countP ChannelOp.isEnqueue < 2 ^ 32 - 1) :
    ∃ ledger : Ledger ω, run step start ops = some ledger ∧
      (ledger.drop.resolved.map (fun notice => notice.1.ticket)).Perm ledger.issued ∧
      ledger.drop.channel.pending = 0 ∧
      ledger.channel.pending + ledger.resolved.length = ledger.issued.length ∧
      ledger.issued.Pairwise (fun earlier later => earlier.1.seq < later.1.seq) ∧
      (∀ seq, (ledger.sent seq).length ≤ 5) ∧
      (∀ notice ∈ ledger.resolved, ∀ attempts, notice.2 = .error (.timeout attempts) →
        attempts = 5 ∧ (ledger.sent notice.1.seq).length = 5) ∧
      (∀ now, ∀ envelope ∈ (ledger.channel.nextDue now).2.1,
        ∃ deadline, ledger.deadline envelope.seq = some deadline ∧ deadline ≤ now) ∧
      ledger.channel.nextTickAt =
        (ledger.channel.outbound.filterMap (fun entry => ledger.deadline entry.seq)).min? := by
  obtain ⟨ledger, hrun, hbalanced⟩ := run_balanced balanced_start ops
    (by simpa [start] using hcount)
  exact ⟨ledger, hrun, drop_settled hbalanced, rfl, pending_add_resolved hbalanced,
    hbalanced.increasing, hbalanced.bounded, hbalanced.timedOut,
    fun now envelope hdue => deadline_of_due hbalanced hdue, nextTickAt_eq hbalanced⟩

theorem completion_accounting_two_sends :
    ∃ ledger : Ledger Nat,
      run step start [.enqueue 2 [7] 0 0, .nextDue 200, .enqueue 1 [] 1 210,
        .onAck ⟨1, .ok⟩] = some ledger ∧
      ledger.channel.pending + ledger.resolved.length = ledger.issued.length := by
  obtain ⟨ledger, hrun, -, -, hpending, -⟩ :=
    completion_accounting [.enqueue 2 [7] 0 0, .nextDue 200, .enqueue 1 [] 1 210,
      .onAck ⟨1, .ok⟩] (by decide)
  exact ⟨ledger, hrun, hpending⟩

end Ledger

end Yggdrasil.Chain
