import Yggdrasil.Chain.Acceptor

/-!
# Orderly sessions

A session is orderly while no predicate set overtakes a newer one and no
envelope is handed over twice.  In an orderly session the sender can tell from
the answers it got which predicate set the receiver applied last.
-/

namespace Yggdrasil.Chain.Link

open Foundation Ratatoskr Heartbeat

variable {Key ω δ χ : Type} {A : Aead Key} {dispatch : Dispatcher δ} {handle : Dispatcher χ}
variable {link next : Link Key ω δ χ} {event : Event ω}

/-- What was handed over before arrives again only while its `Ok` is remembered. -/
def RepeatsAnswered (link : Link Key ω δ χ) (event : Event ω) : Prop :=
  ∀ envelope ∈ link.arriving event, ∀ record ∈ link.dispatched,
    record.envelope.seq = envelope.seq →
      record.status = .ok ∧ envelope.seq ∈ link.server.channel.dedup.seen

variable (A) in
structure Orderly (link : Link Key ω δ χ) : Prop extends Inv A link where
  windowed : Windowed link
  truthful : Truthful (fun _ => True) link
  sequenced : Sequenced link
  once : (link.dispatched.map (·.envelope.seq)).Nodup

theorem duplicatesOk_of_repeatsAnswered (hwindow : Windowed link)
    (h : RepeatsAnswered link event) : DuplicatesOk link event := by
  intro envelope harriving hseen
  rw [hwindow.seen_eq] at hseen
  obtain ⟨record, hrecord, hseq⟩ := List.mem_map.1 (List.mem_of_mem_drop hseen)
  exact ⟨record, hrecord, hseq, (h envelope harriving record hrecord hseq).1⟩

theorem once_change (h : (link.dispatched.map (·.envelope.seq)).Nodup)
    (hrepeats : RepeatsAnswered link event) (hchange : Change A dispatch link event next) :
    (next.dispatched.map (·.envelope.seq)).Nodup := by
  cases hchange with
  | enqueued => exact h
  | retransmitted => exact h
  | clientSpoke => exact h
  | acked => exact h
  | serverSpoke => exact h
  | duplicate => exact h
  | @dispatched index now packet envelope acceptor status hpacket hpayload hfresh hseen =>
      rw [List.map_append]
      refine List.nodup_append.2 ⟨h, List.nodup_singleton _, ?_⟩
      rintro seq hseq other hother rfl
      obtain ⟨record, hrecord, hsame⟩ := List.mem_map.1 hseq
      have hnew : envelope.seq = seq := (List.mem_singleton.1 hother).symm
      exact hseen (hrepeats envelope (arriving_eq hpacket hpayload hfresh now) record hrecord
        (hsame.trans hnew.symm)).2

theorem orderly_start {client server : Session Key} (h : Crossed client server)
    (src : SocketAddr) (acceptor : δ) (handler : χ) :
    Orderly A (start client server src acceptor handler : Link Key ω δ χ) where
  toInv := inv_start h src acceptor handler
  windowed := ⟨rfl, (List.rtake_nil _).symm, spaced_nil _⟩
  truthful := truthful_start _ _ _ _ _ _
  sequenced := ⟨List.Pairwise.nil, List.Pairwise.nil⟩
  once := List.nodup_nil

theorem Orderly.change (h : Orderly A link) (hovertaking : NoOvertaking link event)
    (hrepeats : RepeatsAnswered link event) (hchange : Change A dispatch link event next) :
    Orderly A next where
  toInv := h.toInv.change hchange
  windowed := h.windowed.change hchange
  truthful := h.truthful.change h.toInv
    (fun _ => duplicatesOk_of_repeatsAnswered h.windowed hrepeats) hchange
  sequenced := h.sequenced.change h.toInv hovertaking hchange
  once := once_change h.once hrepeats hchange

theorem Orderly.close (h : Orderly A link) : Orderly A link.close where
  up := h.up
  down := h.down
  enqueued_sorted := h.enqueued_sorted
  enqueued_below := h.enqueued_below
  outbound_mem := by simp [Link.close, Endpoint.close, ControlChannel.abortAll]
  sent_mem := h.sent_mem
  dispatched_mem := h.dispatched_mem
  dispatched_sorted := h.dispatched_sorted
  dispatched_stale := h.dispatched_stale
  windowed := ⟨h.windowed.cap_eq, h.windowed.seen_eq, h.windowed.spaced⟩
  truthful := by
    refine ⟨h.truthful.acks, fun notice hnotice status htrusted hresult => ?_⟩
    rcases List.mem_append.1 hnotice with hold | hnew
    · exact h.truthful.resolved notice hold status htrusted hresult
    · obtain ⟨entry, -, rfl⟩ := List.mem_map.1 hnew
      cases status <;> simp [SendResult.ofStatus] at hresult
  sequenced := ⟨h.sequenced.sent, h.sequenced.dispatched⟩
  once := h.once

def entries (link : Link Key ω δ χ) : List (OutboundEntry ω) :=
  link.client.channel.outbound ++ link.resolved.map Prod.fst

structure Extends (link next : Link Key ω δ χ) : Prop where
  enqueued_eq : next.enqueued = link.enqueued
  entries_from : ∀ entry ∈ next.entries, ∃ old ∈ link.entries,
    old.envelope = entry.envelope ∧ old.completion = entry.completion
  dispatched_sub : link.dispatched ⊆ next.dispatched
  resolved_sub : link.resolved ⊆ next.resolved

theorem mem_entries_iff {entry : OutboundEntry ω} :
    entry ∈ link.entries ↔ entry ∈ link.client.channel.outbound ∨
      ∃ notice ∈ link.resolved, notice.1 = entry := by
  simp [entries]

private theorem extends_of_queue {outbound : List (OutboundEntry ω)}
    {resolved : List (OutboundEntry ω × SendResult)}
    (houtbound : next.client.channel.outbound = outbound)
    (hresolved : next.resolved = link.resolved ++ resolved)
    (hkept : ∀ entry ∈ outbound, ∃ old ∈ link.client.channel.outbound,
      old.envelope = entry.envelope ∧ old.completion = entry.completion)
    (hnew : ∀ notice ∈ resolved, notice.1 ∈ link.client.channel.outbound)
    (henqueued : next.enqueued = link.enqueued)
    (hdispatched : link.dispatched ⊆ next.dispatched) : Extends link next where
  enqueued_eq := henqueued
  dispatched_sub := hdispatched
  resolved_sub := by
    rw [hresolved]
    exact List.subset_append_left _ _
  entries_from := by
    intro entry hentry
    rcases mem_entries_iff.1 hentry with hpending | ⟨notice, hnotice, rfl⟩
    · rw [houtbound] at hpending
      obtain ⟨old, hold, hsame⟩ := hkept entry hpending
      exact ⟨old, mem_entries_iff.2 (.inl hold), hsame⟩
    · rw [hresolved] at hnotice
      rcases List.mem_append.1 hnotice with hold | hjust
      · exact ⟨_, mem_entries_iff.2 (.inr ⟨notice, hold, rfl⟩), rfl, rfl⟩
      · exact ⟨_, mem_entries_iff.2 (.inl (hnew notice hjust)), rfl, rfl⟩

theorem extends_of_change (hevent : event.isSend = false)
    (hchange : Change A dispatch link event next) : Extends link next := by
  have hself : ∀ entry ∈ link.client.channel.outbound, ∃ old ∈ link.client.channel.outbound,
      old.envelope = entry.envelope ∧ old.completion = entry.completion :=
    fun entry hentry => ⟨entry, hentry, rfl, rfl⟩
  have hsame : ∀ {resolved : List (OutboundEntry ω × SendResult)},
      resolved = resolved ++ [] := (List.append_nil _).symm
  cases hchange with
  | enqueued => simp [Event.isSend] at hevent
  | retransmitted now =>
      obtain ⟨hkept, -, hexpired⟩ := link.client.channel.nextDue_spec now
      exact extends_of_queue rfl rfl hkept (fun notice hnotice => (hexpired notice hnotice).1)
        rfl (List.Subset.refl _)
  | clientSpoke handler hreads hseq houtbound =>
      exact extends_of_queue houtbound hsame hself (by simp) rfl (List.Subset.refl _)
  | @acked event packet ack =>
      obtain ⟨hkept, -, hresolved⟩ := link.client.channel.onAck_spec ack
      exact extends_of_queue rfl rfl (fun entry hentry => hself entry (hkept entry hentry))
        (fun notice hnotice => (hresolved notice hnotice).1) rfl (List.Subset.refl _)
  | serverSpoke =>
      exact extends_of_queue rfl hsame hself (by simp) rfl (List.Subset.refl _)
  | duplicate =>
      exact extends_of_queue rfl hsame hself (by simp) rfl (List.Subset.refl _)
  | dispatched =>
      exact extends_of_queue rfl hsame hself (by simp) rfl (List.subset_append_left _ _)

theorem extends_close (link : Link Key ω δ χ) : Extends link link.close := by
  have hempty : link.close.client.channel.outbound = [] := rfl
  refine extends_of_queue hempty rfl (by simp) ?_ rfl (List.Subset.refl _)
  intro notice hnotice
  obtain ⟨entry, hentry, rfl⟩ := List.mem_map.1 hnotice
  exact hentry

structure Enqueues (link : Link Key ω δ χ) (envelope : ControlEnvelope) (completion : ω)
    (next : Link Key ω δ χ) : Prop where
  enqueued_eq : next.enqueued = link.enqueued ++ [envelope]
  newer : ∀ older ∈ link.enqueued, older.seq < envelope.seq
  entries_from : ∀ entry ∈ next.entries,
    entry ∈ link.entries ∨ (entry.envelope = envelope ∧ entry.completion = completion)
  dispatched_eq : next.dispatched = link.dispatched
  resolved_eq : next.resolved = link.resolved

variable {body : Bytes} {completion : ω} {envelope : ControlEnvelope} {pending awaited : Prop}

theorem enqueues_of_step (hinv : Inv A link) {bodyType : UInt8} {now : Nat}
    (hstep : step A dispatch handle link (.send bodyType body completion now) = some next) :
    ∃ seq, Enqueues link ⟨seq, bodyType, body⟩ completion next := by
  simp only [step, Endpoint.sendControl] at hstep
  cases henqueue : link.client.channel.enqueue bodyType body completion now with
  | none => simp [henqueue] at hstep
  | some result =>
      obtain ⟨channel, envelope⟩ := result
      simp only [henqueue, Option.bind_eq_bind, Option.bind_some, Option.some.injEq] at hstep
      obtain ⟨rfl, -, houtbound⟩ := ControlChannel.enqueue_spec henqueue
      subst hstep
      refine ⟨link.client.channel.nextSeq, rfl, hinv.enqueued_below, ?_, rfl, rfl⟩
      intro entry hentry
      rcases mem_entries_iff.1 hentry with hpending | hresolved
      · change entry ∈ channel.outbound at hpending
        rw [houtbound] at hpending
        rcases List.mem_append.1 hpending with hold | hnew
        · exact .inl (mem_entries_iff.2 (.inl hold))
        · rw [List.mem_singleton.1 hnew]
          exact .inr ⟨rfl, rfl⟩
      · exact .inl (mem_entries_iff.2 (.inr hresolved))

def IsNewest (link : Link Key ω δ χ) (envelope : ControlEnvelope) : Prop :=
  ∀ other ∈ link.enqueued, isPredicate other = true → other.seq ≤ envelope.seq

theorem Enqueues.isNewest
    (h : Enqueues link envelope completion next) : next.IsNewest envelope := by
  intro other hmem _
  rw [h.enqueued_eq] at hmem
  rcases List.mem_append.1 hmem with holder | hself
  · have := h.newer other holder
    grind
  · rw [List.mem_singleton.1 hself]
    exact UInt32.le_refl _

def Refused (link : Link Key ω δ χ) (envelope : ControlEnvelope) : Prop :=
  ∃ record ∈ link.dispatched, record.envelope = envelope ∧ record.status ≠ .ok

/--
The body was applied, and every newer predicate set was refused; a push whose
answer is awaited may be the newest.
-/
def Settled (link : Link Key ω δ χ) (pending : Prop) (body : Bytes) : Prop :=
  ∃ record ∈ link.dispatched, isApplied record = true ∧ record.envelope.body = body ∧
    ∀ envelope ∈ link.enqueued, isPredicate envelope = true →
      record.envelope.seq < envelope.seq →
      link.Refused envelope ∨ (pending ∧ link.IsNewest envelope)

theorem isApplied_iff {record : Dispatched} :
    isApplied record = true ↔ isPredicate record.envelope = true ∧ record.status = .ok := by
  simp [isApplied]

theorem Orderly.status_unique (h : Orderly A link) {first second : Dispatched}
    (hfirst : first ∈ link.dispatched) (hsecond : second ∈ link.dispatched)
    (henvelope : first.envelope = second.envelope) : first.status = second.status := by
  have heq := List.inj_on_of_nodup_map h.once hfirst hsecond (by rw [henvelope])
  rw [heq]

theorem Orderly.lastApplied_of_settled (h : Orderly A link) (hpending : ¬ pending)
    (hsettled : link.Settled pending body) : link.lastApplied = some body := by
  obtain ⟨record, hrecord, happlied, hbody, hnewer⟩ := hsettled
  have hmem : record ∈ link.dispatched.filter isApplied := List.mem_filter.2 ⟨hrecord, happlied⟩
  obtain ⟨before, last, hsplit⟩ :=
    (List.eq_nil_or_concat _).resolve_left (List.ne_nil_of_mem hmem)
  rw [List.concat_eq_append] at hsplit
  have hlast : last ∈ link.dispatched.filter isApplied := by
    rw [hsplit]
    exact List.mem_append_right _ (List.mem_singleton.2 rfl)
  obtain ⟨hlastMem, hlastApplied⟩ := List.mem_filter.1 hlast
  obtain ⟨hlastPred, hlastOk⟩ := isApplied_iff.1 hlastApplied
  have hle : record.envelope.seq ≤ last.envelope.seq := by
    have hordered := h.sequenced.dispatched.filter isApplied
    rw [hsplit] at hordered hmem
    rcases List.mem_append.1 hmem with hbefore | hself
    · exact (List.pairwise_append.1 hordered).2.2 record hbefore last
        (List.mem_singleton.2 rfl) (isApplied_iff.1 happlied).1 hlastPred
    · rw [List.mem_singleton.1 hself]
      exact UInt32.le_refl _
  -- a newer last application would have been refused instead
  have hsame : record.envelope = last.envelope := by
    refine h.eq_of_seq_eq (h.dispatched_enqueued hrecord) (h.dispatched_enqueued hlastMem) ?_
    by_contra hne
    rcases hnewer last.envelope (h.dispatched_enqueued hlastMem) hlastPred (by grind) with
      ⟨refused, hrefused, henvelope, hstatus⟩ | ⟨hawaited, -⟩
    · exact hstatus ((h.status_unique hrefused hlastMem henvelope).trans hlastOk)
    · exact hpending hawaited
  unfold lastApplied applied
  rw [hsplit, List.map_append, List.map_singleton, List.getLast?_concat, ← hsame, hbody]

theorem Refused.mono (h : link.Refused envelope)
    (hsub : link.dispatched ⊆ next.dispatched) : next.Refused envelope := by
  obtain ⟨record, hrecord, hanswer⟩ := h
  exact ⟨record, hsub hrecord, hanswer⟩

theorem Settled.mono (h : link.Settled pending body) (hsub : link.dispatched ⊆ next.dispatched)
    (hnewer : ∀ envelope ∈ next.enqueued, isPredicate envelope = true →
      (envelope ∈ link.enqueued →
        link.Refused envelope ∨ (pending ∧ link.IsNewest envelope)) →
      next.Refused envelope ∨ (awaited ∧ next.IsNewest envelope)) : next.Settled awaited body := by
  obtain ⟨record, hrecord, happlied, hbody, hold⟩ := h
  refine ⟨record, hsub hrecord, happlied, hbody, ?_⟩
  intro envelope henvelope hpred hlt
  exact hnewer envelope henvelope hpred (fun hmem => hold envelope hmem hpred hlt)

theorem Settled.extends (h : link.Settled pending body)
    (hext : Extends link next) : next.Settled pending body := by
  apply h.mono hext.dispatched_sub
  intro envelope henvelope hpred hold
  rw [hext.enqueued_eq] at henvelope
  rcases hold henvelope with hrefused | ⟨hpending, hnewest⟩
  · exact .inl (hrefused.mono hext.dispatched_sub)
  · right
    refine ⟨hpending, ?_⟩
    unfold IsNewest
    rw [hext.enqueued_eq]
    exact hnewest

theorem Settled.enqueues_other (h : link.Settled pending body)
    (hnew : Enqueues link envelope completion next) (hother : isPredicate envelope = false) :
    next.Settled pending body := by
  have hold : ∀ older ∈ next.enqueued, isPredicate older = true → older ∈ link.enqueued := by
    intro older holder hpred
    rw [hnew.enqueued_eq] at holder
    rcases List.mem_append.1 holder with hmem | hself
    · exact hmem
    · rw [List.mem_singleton.1 hself, hother] at hpred
      cases hpred
  have hsub : link.dispatched ⊆ next.dispatched := hnew.dispatched_eq ▸ List.Subset.refl _
  apply h.mono hsub
  intro newer hmem hpred hanswer
  rcases hanswer (hold newer hmem hpred) with hrefused | ⟨hpending, hnewest⟩
  · exact .inl (hrefused.mono hsub)
  · exact .inr ⟨hpending, fun older holder hpred => hnewest older (hold older holder hpred) hpred⟩

theorem Settled.enqueues_push (h : link.Settled pending body) (hnone : ¬ pending)
    (hawaited : awaited) (hnew : Enqueues link envelope completion next) :
    next.Settled awaited body := by
  have hsub : link.dispatched ⊆ next.dispatched := hnew.dispatched_eq ▸ List.Subset.refl _
  apply h.mono hsub
  intro newer hmem hpred hanswer
  rw [hnew.enqueued_eq] at hmem
  rcases List.mem_append.1 hmem with hold | hself
  · rcases hanswer hold with hrefused | ⟨hpending, -⟩
    · exact .inl (hrefused.mono hsub)
    · exact absurd hpending hnone
  · right
    rw [List.mem_singleton.1 hself]
    exact ⟨hawaited, hnew.isNewest⟩

theorem Settled.refused (hinv : Inv A link) (h : link.Settled pending body)
    (hmem : envelope ∈ link.enqueued) (hpred : isPredicate envelope = true)
    (hnewest : link.IsNewest envelope)
    (hrefused : link.Refused envelope) : link.Settled awaited body := by
  apply h.mono (List.Subset.refl _)
  intro newer hnewerMem hnewerPred hanswer
  left
  rcases hanswer hnewerMem with hold | ⟨-, hnewest'⟩
  · exact hold
  · have hle := hnewest newer hnewerMem hnewerPred
    have hle' := hnewest' envelope hmem hpred
    rw [hinv.eq_of_seq_eq hnewerMem hmem (by grind)]
    exact hrefused

theorem settled_of_accepted {record : Dispatched} (hrecord : record ∈ link.dispatched)
    (hpred : isPredicate record.envelope = true) (hok : record.status = .ok)
    (hnewest : link.IsNewest record.envelope) : link.Settled pending record.envelope.body := by
  refine ⟨record, hrecord, isApplied_iff.2 ⟨hpred, hok⟩, rfl, ?_⟩
  intro newer hmem hnewerPred hlt
  have := hnewest newer hmem hnewerPred
  exact absurd hlt (by grind)

end Yggdrasil.Chain.Link
