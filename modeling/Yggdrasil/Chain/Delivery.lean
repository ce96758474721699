import Yggdrasil.Chain.Link

/-!
# What the control channel delivers

Order, multiplicity and acknowledgement of control envelopes over one session,
for every schedule of loss, delay, reordering and retransmission.
-/

namespace Yggdrasil.Chain.Link

open Foundation Ratatoskr Heartbeat

variable {Key ω δ χ : Type} {A : Aead Key} {dispatch : Dispatcher δ} {handle : Dispatcher χ}
variable {link next : Link Key ω δ χ} {event : Event ω}

variable (A) in
/-- Everything handed over was enqueued once, and came in a packet of its own. -/
structure Inv (link : Link Key ω δ χ) : Prop extends Wired A link where
  enqueued_sorted : link.enqueued.Pairwise (fun earlier later => earlier.seq < later.seq)
  enqueued_below : ∀ envelope ∈ link.enqueued, envelope.seq < link.client.channel.nextSeq
  outbound_mem : ∀ entry ∈ link.client.channel.outbound, entry.envelope ∈ link.enqueued
  sent_mem : ∀ packet ∈ link.toServer, ∀ envelope, packet.payload = .control envelope →
    envelope ∈ link.enqueued
  dispatched_mem : ∀ record ∈ link.dispatched, ∃ packet ∈ link.toServer,
    packet.payload = .control record.envelope ∧ packet.counter = record.counter
  dispatched_sorted :
    link.dispatched.Pairwise (fun earlier later => earlier.counter < later.counter)
  dispatched_stale : ∀ record ∈ link.dispatched,
    ¬ link.server.session.Fresh record.counter

/-- The two halves of one handshake. -/
structure Crossed (client server : Session Key) : Prop where
  up : server.transport.recvKey = client.transport.sendKey
  down : client.transport.recvKey = server.transport.sendKey
  sessionId_eq : server.sessionId = client.sessionId

theorem inv_start {client server : Session Key} (h : Crossed client server)
    (src : SocketAddr) (acceptor : δ) (handler : χ) :
    Inv A (start client server src acceptor handler : Link Key ω δ χ) where
  up := .nil h.up h.sessionId_eq
  down := .nil h.down h.sessionId_eq.symm
  enqueued_sorted := List.Pairwise.nil
  enqueued_below := by simp [start]
  outbound_mem := by simp [start, ControlChannel.new]
  sent_mem := by simp [start]
  dispatched_mem := by simp [start]
  dispatched_sorted := List.Pairwise.nil
  dispatched_stale := by simp [start]

/-! A small link on which runs are evaluated. -/

theorem crossed_toy : Crossed Session.toySender Session.toyReceiver := ⟨rfl, rfl, rfl⟩

def toyStart {δ : Type} (acceptor : δ) : Link UInt64 Nat δ Unit :=
  start Session.toySender Session.toyReceiver ⟨.v4 0, 0⟩ acceptor ()

def ignoreBody : Dispatcher Unit := fun world _ _ => (world, .unknown)

def applyBody : Dispatcher Bytes := fun _ _ body => (body, .ok)

def refuseBody : Dispatcher Unit := fun world _ _ => (world, .reject 7)

private theorem Inv.dispatched_mem_append (h : Inv A link) (packets : List Sent) :
    ∀ record ∈ link.dispatched, ∃ packet ∈ link.toServer ++ packets,
      packet.payload = .control record.envelope ∧ packet.counter = record.counter := by
  intro record hrecord
  obtain ⟨packet, hpacket, heq⟩ := h.dispatched_mem record hrecord
  exact ⟨packet, List.mem_append_left _ hpacket, heq⟩

private theorem Inv.sent_mem_append (h : Inv A link) {packets : List Sent}
    {enqueued : List ControlEnvelope} (hkept : link.enqueued ⊆ enqueued)
    (hnew : ∀ packet ∈ packets, ∀ envelope, packet.payload = .control envelope →
      envelope ∈ enqueued) :
    ∀ packet ∈ link.toServer ++ packets, ∀ envelope, packet.payload = .control envelope →
      envelope ∈ enqueued := by
  refine List.forall_mem_append.2 ⟨?_, hnew⟩
  exact fun packet hpacket envelope henvelope => hkept (h.sent_mem packet hpacket envelope henvelope)

theorem Inv.change (h : Inv A link) (hchange : Change A dispatch link event next) :
    Inv A next := by
  have hwired := h.toWired.change hchange
  cases hchange with
  | @enqueued bodyType body completion now channel envelope henqueue =>
      obtain ⟨henvelope, hnext, houtbound⟩ := ControlChannel.enqueue_spec henqueue
      refine ⟨hwired, ?_, ?_, ?_, ?_, h.dispatched_mem_append _, h.dispatched_sorted,
        h.dispatched_stale⟩
      · refine pairwise_concat h.enqueued_sorted ?_
        intro earlier hearlier
        rw [henvelope]
        exact h.enqueued_below earlier hearlier
      · refine forall_mem_concat ?_ (henvelope ▸ hnext)
        intro old hold
        have := h.enqueued_below old hold
        grind
      · rw [houtbound]
        refine forall_mem_concat ?_ (List.mem_append_right _ (List.mem_singleton.2 rfl))
        exact fun entry hentry => List.mem_append_left _ (h.outbound_mem entry hentry)
      · refine h.sent_mem_append (List.subset_append_left _ _) ?_
        intro packet hpacket sent hsent
        rw [Session.payload_of_mem_emit A hpacket, Payload.control.injEq] at hsent
        exact List.mem_append_right _ (List.mem_singleton.2 hsent.symm)
  | @retransmitted now due hdue =>
      obtain ⟨hkept, hresent, -⟩ := link.client.channel.nextDue_spec now
      refine ⟨hwired, h.enqueued_sorted, h.enqueued_below, ?_, ?_,
        h.dispatched_mem_append _, h.dispatched_sorted, h.dispatched_stale⟩
      · intro entry hentry
        obtain ⟨old, hold, heq, -⟩ := hkept entry hentry
        exact heq ▸ h.outbound_mem old hold
      · refine h.sent_mem_append (List.Subset.refl _) ?_
        intro packet hpacket sent hsent
        have hmem := Session.payload_of_mem_emitAll A hpacket
        rw [hdue, hsent, List.mem_map_of_injective (fun _ _ heq => by simpa using heq)] at hmem
        obtain ⟨old, hold, heq⟩ := hresent sent hmem
        exact heq ▸ h.outbound_mem old hold
  | clientSpoke handler hreads hseq houtbound hpayloads =>
      refine ⟨hwired, h.enqueued_sorted, ?_, ?_, ?_, h.dispatched_mem_append _,
        h.dispatched_sorted, h.dispatched_stale⟩
      · rw [hseq]
        exact h.enqueued_below
      · rw [houtbound]
        exact h.outbound_mem
      · refine h.sent_mem_append (List.Subset.refl _) ?_
        intro packet hpacket sent hsent
        exact absurd ⟨sent, hsent⟩ (hpayloads _ (Session.payload_of_mem_emitAll A hpacket))
  | @acked event packet ack hpacket hpayload hfresh =>
      obtain ⟨hkept, hseq, -⟩ := link.client.channel.onAck_spec ack
      refine ⟨hwired, h.enqueued_sorted, ?_, ?_, h.sent_mem, h.dispatched_mem,
        h.dispatched_sorted, h.dispatched_stale⟩
      · rw [hseq]
        exact h.enqueued_below
      · exact fun entry hentry => h.outbound_mem entry (hkept entry hentry)
  | serverSpoke seq hreads hpayloads =>
      refine ⟨hwired, h.enqueued_sorted, h.enqueued_below, h.outbound_mem, h.sent_mem,
        h.dispatched_mem, h.dispatched_sorted, ?_⟩
      intro record hrecord hfresh
      exact h.dispatched_stale record hrecord
        (hreads.fresh ((Session.fresh_emitAll A _ _ _).1 hfresh))
  | duplicate hpacket hpayload hfresh hseen =>
      refine ⟨hwired, h.enqueued_sorted, h.enqueued_below, h.outbound_mem, h.sent_mem,
        h.dispatched_mem, h.dispatched_sorted, ?_⟩
      intro record hrecord hagain
      exact h.dispatched_stale record hrecord
        ((Session.Reads.accepted hfresh).fresh ((Session.fresh_emit A _ _ _).1 hagain))
  | @dispatched index now packet envelope acceptor status hpacket hpayload hfresh =>
      have hmem := List.mem_of_getElem? hpacket
      refine ⟨hwired, h.enqueued_sorted, h.enqueued_below, h.outbound_mem, h.sent_mem,
        ?_, ?_, ?_⟩
      · exact forall_mem_concat h.dispatched_mem ⟨packet, hmem, hpayload, rfl⟩
      · refine pairwise_concat h.dispatched_sorted ?_
        intro earlier hearlier
        -- an earlier hand-over is stale, the new packet was fresh
        by_contra hle
        refine h.dispatched_stale earlier hearlier (fun last hlast => ?_)
        have := hfresh last hlast
        grind
      · intro record hrecord hagain
        have hagain := (Session.fresh_emit A _ _ _).1 hagain
        rcases List.mem_append.1 hrecord with hold | hnew
        · exact h.dispatched_stale record hold ((Session.Reads.accepted hfresh).fresh hagain)
        · rw [List.mem_singleton.1 hnew] at hagain
          have := hagain packet.counter rfl
          grind

theorem inv_of_step (h : Inv A link)
    (hstep : step A dispatch handle link event = some next) : Inv A next :=
  h.change (change_of_step h.toWired hstep)

theorem Inv.eq_of_seq_eq (h : Inv A link) {first second : ControlEnvelope}
    (hfirst : first ∈ link.enqueued) (hsecond : second ∈ link.enqueued)
    (hseq : first.seq = second.seq) : first = second := by
  rcases precedes_total hfirst hsecond with heq | hbefore | hafter
  · exact heq
  · have := hbefore.related h.enqueued_sorted
    exact absurd hseq (by grind)
  · have := hafter.related h.enqueued_sorted
    exact absurd hseq (by grind)

theorem Inv.dispatched_enqueued (h : Inv A link) {record : Dispatched}
    (hrecord : record ∈ link.dispatched) : record.envelope ∈ link.enqueued := by
  obtain ⟨packet, hpacket, hpayload, -⟩ := h.dispatched_mem record hrecord
  exact h.sent_mem packet hpacket _ hpayload

/-! ## Acknowledgements -/

theorem ofStatus_injective : Function.Injective SendResult.ofStatus := by
  intro first second h
  cases first <;> cases second <;> simp_all [SendResult.ofStatus]

/--
Acks and resolved sends whose status satisfies `trusted` repeat an answer that
the dispatcher gave for that envelope.
-/
structure Truthful (trusted : AckStatus → Prop) (link : Link Key ω δ χ) : Prop where
  acks : ∀ packet ∈ link.toClient, ∀ ack, packet.payload = .controlAck ack →
    trusted ack.status →
    ∃ record ∈ link.dispatched, record.envelope.seq = ack.seq ∧ record.status = ack.status
  resolved : ∀ notice ∈ link.resolved, ∀ status, trusted status →
    notice.2 = SendResult.ofStatus status →
    ∃ record ∈ link.dispatched, record.envelope = notice.1.envelope ∧ record.status = status

/-- The envelope of a packet that passes the server's replay filter. -/
def arriving (link : Link Key ω δ χ) : Event ω → Option ControlEnvelope
  | .deliverToServer index _ => link.toServer[index]?.bind fun packet =>
      match packet.payload with
      | .control envelope =>
          if link.server.session.Fresh packet.counter then some envelope else none
      | _ => none
  | _ => none

theorem arriving_eq {index : Nat} {packet : Sent} {envelope : ControlEnvelope}
    (hpacket : link.toServer[index]? = some packet) (hpayload : packet.payload = .control envelope)
    (hfresh : link.server.session.Fresh packet.counter) (now : UInt64) :
    link.arriving (.deliverToServer index now) = some envelope := by
  simp [arriving, hpacket, hpayload, hfresh]

/-- What arrives again was answered `Ok` by the dispatcher. -/
def DuplicatesOk (link : Link Key ω δ χ) (event : Event ω) : Prop :=
  ∀ envelope ∈ link.arriving event, envelope.seq ∈ link.server.channel.dedup.seen →
    ∃ record ∈ link.dispatched, record.envelope.seq = envelope.seq ∧ record.status = .ok

instance (link : Link Key ω δ χ) (event : Event ω) : Decidable (DuplicatesOk link event) :=
  inferInstanceAs (Decidable (∀ envelope ∈ link.arriving event, _))

theorem Truthful.change {trusted : AckStatus → Prop} (hinv : Inv A link)
    (h : Truthful trusted link) (hok : trusted .ok → DuplicatesOk link event)
    (hchange : Change A dispatch link event next) : Truthful trusted next := by
  cases hchange with
  | enqueued => exact ⟨h.acks, h.resolved⟩
  | clientSpoke => exact ⟨h.acks, h.resolved⟩
  | retransmitted now =>
      refine ⟨h.acks, fun notice hnotice status htrusted hresult => ?_⟩
      rcases List.mem_append.1 hnotice with hold | hnew
      · exact h.resolved notice hold status htrusted hresult
      · rw [((link.client.channel.nextDue_spec now).2.2 notice hnew).2] at hresult
        cases status <;> simp [SendResult.ofStatus] at hresult
  | @acked event packet ack hpacket hpayload =>
      refine ⟨h.acks, fun notice hnotice status htrusted hresult => ?_⟩
      rcases List.mem_append.1 hnotice with hold | hnew
      · exact h.resolved notice hold status htrusted hresult
      · obtain ⟨hentry, hseq, heq⟩ := (link.client.channel.onAck_spec ack).2.2 notice hnew
        obtain rfl : status = ack.status :=
          ofStatus_injective (hresult.symm.trans heq)
        obtain ⟨record, hrecord, hsame, hstatus⟩ := h.acks packet hpacket ack hpayload htrusted
        refine ⟨record, hrecord, ?_, hstatus⟩
        exact hinv.eq_of_seq_eq (hinv.dispatched_enqueued hrecord)
          (hinv.outbound_mem _ hentry) (hsame.trans hseq.symm)
  | serverSpoke seq hreads hpayloads =>
      refine ⟨fun packet hpacket ack hack => ?_, h.resolved⟩
      rcases List.mem_append.1 hpacket with hold | hnew
      · exact h.acks packet hold ack hack
      · exact absurd ⟨ack, hack⟩ (hpayloads _ (Session.payload_of_mem_emitAll A hnew))
  | @duplicate index now packet envelope hpacket hpayload hfresh hseen =>
      refine ⟨fun sent hsent ack hack htrusted => ?_, h.resolved⟩
      rcases List.mem_append.1 hsent with hold | hnew
      · exact h.acks sent hold ack hack htrusted
      · rw [Session.payload_of_mem_emit A hnew, Payload.controlAck.injEq] at hack
        subst hack
        exact hok htrusted envelope (arriving_eq hpacket hpayload hfresh now) hseen
  | @dispatched index now packet envelope acceptor status hpacket hpayload =>
      refine ⟨fun sent hsent ack hack htrusted => ?_, fun notice hnotice result htrusted heq => ?_⟩
      · rcases List.mem_append.1 hsent with hold | hnew
        · obtain ⟨record, hrecord, hsame⟩ := h.acks sent hold ack hack htrusted
          exact ⟨record, List.mem_append_left _ hrecord, hsame⟩
        · rw [Session.payload_of_mem_emit A hnew, Payload.controlAck.injEq] at hack
          subst hack
          exact ⟨_, List.mem_append_right _ (List.mem_singleton.2 rfl), rfl, rfl⟩
      · obtain ⟨record, hrecord, hsame⟩ := h.resolved notice hnotice result htrusted heq
        exact ⟨record, List.mem_append_left _ hrecord, hsame⟩

theorem truthful_start (trusted : AckStatus → Prop) (client server : Session Key)
    (src : SocketAddr) (acceptor : δ) (handler : χ) :
    Truthful trusted (start client server src acceptor handler : Link Key ω δ χ) :=
  ⟨by simp [start], by simp [start]⟩

section Results

variable {client server : Session Key} {src : SocketAddr} {acceptor : δ} {handler : χ}
variable {events : List (Event ω)}

/-- A refusal that reaches the sender was given by the dispatcher, in every run. -/
theorem refusals_genuine (hcrossed : Crossed client server)
    (hrun : run (step A dispatch handle) (start client server src acceptor handler) events =
      some link) : Truthful (· ≠ .ok) link := by
  refine (run_invariant (step A dispatch handle)
    (P := fun link => Inv A link ∧ Truthful (· ≠ .ok) link) ?_
    ⟨inv_start hcrossed src acceptor handler, truthful_start _ _ _ _ _ _⟩ hrun).2
  rintro link event next ⟨hinv, htruthful⟩ hstep
  exact ⟨inv_of_step hinv hstep, htruthful.change hinv (fun hok => absurd rfl hok)
    (change_of_step hinv.toWired hstep)⟩

theorem refusals_genuine_toy :
    ∃ link, run (step Aead.transparent refuseBody ignoreBody) (toyStart ())
        [.send 2 [1] 0 0, .deliverToServer 0 0, .deliverToClient 0] = some link ∧
      Truthful (· ≠ .ok) link :=
  (Option.isSome_iff_exists.1 (by rfl)).imp fun _ hrun => ⟨hrun, refusals_genuine crossed_toy hrun⟩

/--
In every run in which duplicates reach the server only for envelopes answered
`Ok`, each send resolves to an outcome its dispatcher gave for that envelope.
-/
theorem acks_agree (hcrossed : Crossed client server)
    (hguard : Along (step A dispatch handle) DuplicatesOk
      (start client server src acceptor handler) events)
    (hrun : run (step A dispatch handle) (start client server src acceptor handler) events =
      some link) :
    ∀ notice ∈ link.resolved, ∀ status, notice.2 = SendResult.ofStatus status →
      ∃ record ∈ link.dispatched,
        record.envelope = notice.1.envelope ∧ record.status = status := by
  have hall := run_invariant_of_guard (step A dispatch handle)
    (P := fun link => Inv A link ∧ Truthful (fun _ => True) link)
    (fun link event next h hduplicates hstep =>
      ⟨inv_of_step h.1 hstep, h.2.change h.1 (fun _ => hduplicates)
        (change_of_step h.1.toWired hstep)⟩)
    ⟨inv_start hcrossed src acceptor handler, truthful_start _ _ _ _ _ _⟩ hguard hrun
  exact fun notice hnotice status hresult =>
    hall.2.resolved notice hnotice status trivial hresult

/-- The refusal is lost; the retransmission is acked `Ok` as a duplicate. -/
theorem refused_send_resolves_ok :
    (run (step Aead.transparent refuseBody ignoreBody) (toyStart ())
      [.send 2 [1] 0 0, .deliverToServer 0 0, .retransmit 200, .deliverToServer 1 0,
        .deliverToClient 1]).map
      (fun link => (link.dispatched.map (·.status), link.resolved.map (·.2))) =
    some ([.reject 7], [.ok ()]) := by
  rfl

/-- The first ack is lost and the packet is duplicated; the retransmission is acked again. -/
def lostAck : List (Event Nat) :=
  [.send 2 [1] 0 0, .deliverToServer 0 0, .retransmit 200, .deliverToServer 1 0,
    .deliverToServer 0 0, .deliverToClient 1]

theorem acks_agree_toy :
    ∃ link, run (step Aead.transparent applyBody ignoreBody) (toyStart []) lostAck = some link ∧
      link.resolved.map (·.2) = [.ok ()] ∧
      ∀ notice ∈ link.resolved, ∀ status, notice.2 = SendResult.ofStatus status →
        ∃ record ∈ link.dispatched,
          record.envelope = notice.1.envelope ∧ record.status = status := by
  obtain ⟨link, hrun, hresolved⟩ := Option.map_eq_some_iff.1 (show
    (run (step Aead.transparent applyBody ignoreBody) (toyStart []) lostAck).map
      (fun link => link.resolved.map (·.2)) = some [.ok ()] from rfl)
  exact ⟨link, hrun, hresolved, acks_agree crossed_toy (by decide +kernel) hrun⟩

structure Windowed (link : Link Key ω δ χ) : Prop where
  cap_eq : link.server.channel.dedup.cap = dedupWindow
  seen_eq : link.server.channel.dedup.seen =
    (link.dispatched.map (·.envelope.seq)).rtake dedupWindow
  spaced : Spaced dedupWindow (link.dispatched.map (·.envelope.seq))

theorem Windowed.change (h : Windowed link) (hchange : Change A dispatch link event next) :
    Windowed next := by
  cases hchange with
  | enqueued => exact ⟨h.cap_eq, h.seen_eq, h.spaced⟩
  | retransmitted => exact ⟨h.cap_eq, h.seen_eq, h.spaced⟩
  | clientSpoke => exact ⟨h.cap_eq, h.seen_eq, h.spaced⟩
  | acked => exact ⟨h.cap_eq, h.seen_eq, h.spaced⟩
  | serverSpoke => exact ⟨h.cap_eq, h.seen_eq, h.spaced⟩
  | duplicate => exact ⟨h.cap_eq, h.seen_eq, h.spaced⟩
  | @dispatched index now packet envelope acceptor status hpacket hpayload hfresh hseen =>
      have hnew : link.server.channel.dedup.contains envelope.seq = false := by
        exact Bool.eq_false_iff.2 (fun hc => hseen ((DedupWindow.contains_iff _ _).1 hc))
      have hinsert : link.server.channel.dedup.insert envelope.seq =
          { link.server.channel.dedup with
            seen := pushWindow link.server.channel.dedup.cap
              link.server.channel.dedup.seen envelope.seq } := by
        rw [DedupWindow.insert, hnew]
        rfl
      refine ⟨?_, ?_, ?_⟩
      · change (link.server.channel.dedup.insert envelope.seq).cap = dedupWindow
        rw [hinsert]
        exact h.cap_eq
      · change (link.server.channel.dedup.insert envelope.seq).seen = _
        rw [hinsert, List.map_append]
        change pushWindow _ _ _ = _
        rw [h.cap_eq, h.seen_eq, pushWindow_rtake (by decide)]
        rfl
      · rw [List.map_append]
        rw [h.seen_eq] at hseen
        exact h.spaced.append hseen

/--
In every run an envelope is handed over again only after at least
`dedupWindow` others have been handed over since.
-/
theorem redelivery_spaced (hcrossed : Crossed client server)
    (hrun : run (step A dispatch handle) (start client server src acceptor handler) events =
      some link) :
    Spaced dedupWindow (link.dispatched.map (·.envelope.seq)) := by
  refine (run_invariant (step A dispatch handle)
    (P := fun link => Inv A link ∧ Windowed link) ?_
    ⟨inv_start hcrossed src acceptor handler, ?_⟩ hrun).2.spaced
  · rintro link event next ⟨hinv, hwindow⟩ hstep
    exact ⟨inv_of_step hinv hstep, hwindow.change (change_of_step hinv.toWired hstep)⟩
  · exact ⟨rfl, (List.rtake_nil _).symm, spaced_nil _⟩

variable (dispatch handle)

variable {envelope : ControlEnvelope} {rounds : Nat}

theorem step_deliverToServer (hwired : Wired A link) {index : Nat} {packet : Sent}
    (hpacket : link.toServer[index]? = some packet) (hpayload : packet.payload = .control envelope)
    (hfresh : link.server.session.Fresh packet.counter)
    (hseen : envelope.seq ∉ link.server.channel.dedup.seen) (now : UInt64) :
    ∃ next, step A dispatch handle link (.deliverToServer index now) = some next ∧
      next.client = link.client ∧ next.toServer = link.toServer ∧
      next.dispatched.map (·.envelope.seq) =
        link.dispatched.map (·.envelope.seq) ++ [envelope.seq] ∧
      ∀ counter, packet.counter < counter → next.server.session.Fresh counter := by
  have hproduced := hwired.up.produced packet (List.mem_of_getElem? hpacket)
  have htype : packet.payload.codec.packetType = .control := by rw [hpayload]; rfl
  rcases Endpoint.receiveControl_cases A dispatch link.acceptor hpayload hproduced
      hproduced.parse_eq with
    ⟨hstale, -⟩ | ⟨-, hduplicate, -⟩ | ⟨-, -, acceptor, status, -, hreceive⟩
  · exact absurd hfresh hstale
  · exact absurd hduplicate hseen
  · have hserved : link.server.receive A dispatch link.acceptor packet.bytes now =
        link.server.handleControl A dispatch link.acceptor ⟨packet.payload.codec.packetType,
          link.server.session.sessionId, some packet.counter,
          A.encrypt link.server.session.transport.recvKey packet.counter
            packet.payload.plaintext⟩ := by
      simp only [SessionState.receive, hproduced.parse_eq, htype]
    simp only [step, hpacket, Option.bind_eq_bind, Option.bind_some, hserved,
      SessionState.handleControl, hreceive]
    refine ⟨_, rfl, rfl, rfl, by simp, ?_⟩
    intro counter hlt
    rw [Session.fresh_emit]
    intro last hlast
    cases hlast
    exact hlt

theorem step_send (hseq : link.client.channel.nextSeq ≠ 0xffffffff) {bodyType : UInt8}
    {body : Bytes} (henvelope : envelope = ⟨link.client.channel.nextSeq, bodyType, body⟩)
    (hwrite : link.client.session.CanWrite (Payload.control envelope).plaintext) (completion : ω)
    (now : Nat) :
    ∃ next packet, step A dispatch handle link (.send bodyType body completion now) = some next ∧
      next.server = link.server ∧ next.dispatched = link.dispatched ∧
      next.toServer = link.toServer ++ [packet] ∧ packet.payload = .control envelope ∧
      packet.counter = link.client.session.sendingCounter ∧
      next.client.session = link.client.session.advance ∧
      next.client.channel.nextSeq = link.client.channel.nextSeq + 1 ∧
      next.client.channel.outbound = link.client.channel.outbound ++
        [⟨envelope, 1, now + retxInitial, completion⟩] := by
  subst henvelope
  simp only [step, Endpoint.sendControl, ControlChannel.enqueue, dif_neg hseq,
    Session.emit_of_canWrite A hwrite, Option.bind_eq_bind, Option.bind_some]
  exact ⟨_, _, rfl, rfl, rfl, rfl, rfl, rfl, rfl, rfl, rfl⟩

theorem step_retransmit {rest : List ControlEnvelope} {now : Nat}
    (hdue : (link.client.channel.nextDue now).2.1 = envelope :: rest)
    (hwrite : link.client.session.CanWrite (Payload.control envelope).plaintext) :
    ∃ next packet more, step A dispatch handle link (.retransmit now) = some next ∧
      next.server = link.server ∧ next.dispatched = link.dispatched ∧
      next.toServer = link.toServer ++ packet :: more ∧ packet.payload = .control envelope ∧
      packet.counter = link.client.session.sendingCounter := by
  simp only [step, Endpoint.retransmit, hdue, List.map_cons, Session.emitAll,
    Session.emit_of_canWrite A hwrite]
  exact ⟨_, _, _, rfl, rfl, rfl, rfl, rfl, rfl⟩

variable {dispatch handle}

def floodSeq (round : Nat) : UInt32 := .ofNat (round + 1)

theorem floodSeq_injOn {round other : Nat} (hround : round < 1000) (hother : other < 1000)
    (h : floodSeq round = floodSeq other) : round = other := by
  have hvalue := congrArg UInt32.toNat h
  simp only [floodSeq, UInt32.toNat_ofNat'] at hvalue
  omega

structure Flooded (rounds : Nat) (link : Link UInt64 Nat Bytes Unit) : Prop where
  inv : Inv Aead.transparent link
  windowed : Windowed link
  length : link.toServer.length = rounds
  nextSeq : link.client.channel.nextSeq = floodSeq rounds
  outbound : link.client.channel.outbound = (List.range rounds).map fun round =>
    ⟨⟨floodSeq round, 2, []⟩, 1, retxInitial, round⟩
  sending : link.client.session.sendingCounter = .ofNat rounds
  fresh : link.server.session.Fresh (.ofNat rounds)
  dispatched : link.dispatched.map (·.envelope.seq) = (List.range rounds).map floodSeq

theorem flooded_start : Flooded 0 (toyStart []) where
  inv := inv_start crossed_toy _ _ _
  windowed := ⟨rfl, (List.rtake_nil _).symm, spaced_nil _⟩
  length := rfl
  nextSeq := rfl
  outbound := rfl
  sending := rfl
  fresh := fun _ hlast => by cases hlast
  dispatched := rfl

theorem canWrite_of_flooded {link : Link UInt64 Nat Bytes Unit} (hrounds : rounds < 1000)
    (hsending : link.client.session.sendingCounter = .ofNat rounds) (seq : UInt32) :
    link.client.session.CanWrite (Payload.control ⟨seq, 2, []⟩).plaintext := by
  constructor
  · have hseq : (Postcard.encodeU32 seq).length ≤ 5 := length_encodeVarint_le 5 _
    have hplain : (Payload.control ⟨seq, 2, []⟩).plaintext =
        Postcard.encodeU32 seq ++ 2 :: Postcard.encodeVec [] := rfl
    have hbody : (Postcard.encodeVec []).length = 1 := rfl
    have hmax : 7 + aeadTagLen ≤ maxPacketLen := by decide
    rw [hplain, List.length_append, List.length_cons, hbody]
    omega
  · rw [hsending]
    intro hspent
    have hvalue := congrArg UInt64.toNat hspent
    simp only [UInt64.toNat_ofNat'] at hvalue
    simp [maxNonce] at hvalue
    omega

theorem flooded_round {link : Link UInt64 Nat Bytes Unit} (h : Flooded rounds link)
    (hrounds : rounds < 999) :
    ∃ next, run (step Aead.transparent applyBody ignoreBody) link
        [.send 2 [] rounds 0, .deliverToServer rounds 0] = some next ∧
      Flooded (rounds + 1) next := by
  have hmax : link.client.channel.nextSeq ≠ 0xffffffff := by
    rw [h.nextSeq]
    intro hspent
    have hvalue := congrArg UInt32.toNat hspent
    simp only [floodSeq, UInt32.toNat_ofNat'] at hvalue
    simp at hvalue
    omega
  obtain ⟨sent, packet, hsend, hserver, hkept, htoServer, hpayload, hcounter, hsession, hnextSeq,
    houtbound⟩ := step_send (A := Aead.transparent) applyBody ignoreBody
      hmax rfl (canWrite_of_flooded (by omega) h.sending _) rounds 0
  have hsentInv : Inv Aead.transparent sent := inv_of_step h.inv hsend
  have hsentWindow : Windowed sent := h.windowed.change (change_of_step h.inv.toWired hsend)
  have hpacket : sent.toServer[rounds]? = some packet := by simp [htoServer, h.length]
  have hunseen : link.client.channel.nextSeq ∉ sent.server.channel.dedup.seen := by
    rw [hserver, h.windowed.seen_eq, h.dispatched, h.nextSeq]
    intro hseen
    obtain ⟨round, hround, hseq⟩ := List.mem_map.1 (List.mem_of_mem_drop hseen)
    have hlt := List.mem_range.1 hround
    have := floodSeq_injOn (by omega) (by omega) hseq
    omega
  have hfresh : sent.server.session.Fresh packet.counter := by
    rw [hserver, hcounter, h.sending]
    exact h.fresh
  obtain ⟨next, hdeliver, hclient, hqueue, hdispatched, hlater⟩ :=
    step_deliverToServer applyBody ignoreBody hsentInv.toWired hpacket hpayload hfresh hunseen 0
  refine ⟨next, by simp [run, hsend, hdeliver], ?_⟩
  constructor
  case inv => exact inv_of_step hsentInv hdeliver
  case windowed => exact hsentWindow.change (change_of_step hsentInv.toWired hdeliver)
  case length => simp [hqueue, htoServer, h.length]
  case nextSeq =>
    rw [hclient, hnextSeq, h.nextSeq]
    simp [floodSeq]
  case outbound => simp [hclient, houtbound, h.outbound, h.nextSeq, List.range_succ]
  case sending =>
    rw [hclient, hsession]
    change link.client.session.sendingCounter + 1 = _
    simp [h.sending]
  case fresh =>
    apply hlater
    rw [hcounter, h.sending, UInt64.lt_iff_toNat_lt]
    simp only [UInt64.toNat_ofNat']
    omega
  case dispatched => simp [hdispatched, hkept, h.dispatched, h.nextSeq, List.range_succ]

theorem flooded_run (hrounds : rounds < 1000) :
    ∃ link, run (step Aead.transparent applyBody ignoreBody) (toyStart [])
        ((List.range rounds).flatMap fun index =>
          [.send 2 [] index 0, .deliverToServer index 0]) = some link ∧
      Flooded rounds link := by
  induction rounds with
  | zero => exact ⟨_, rfl, flooded_start⟩
  | succ rounds ih =>
      obtain ⟨link, hrun, hflooded⟩ := ih (by omega)
      obtain ⟨next, hround, hnext⟩ := flooded_round hflooded (by omega)
      refine ⟨next, ?_, hnext⟩
      rw [List.range_succ, List.flatMap_append, List.flatMap_singleton]
      exact run_append _ hrun hround

def floodEvents : List (Event Nat) :=
  (List.range 257).flatMap (fun index => [.send 2 [] index 0, .deliverToServer index 0]) ++
    [.retransmit 200, .deliverToServer 257 0]

theorem envelope_dispatched_twice :
    (run (step Aead.transparent applyBody ignoreBody) (toyStart []) floodEvents).map
      (fun link => (link.dispatched.map (·.envelope.seq)).count 1) = some 2 := by
  obtain ⟨link, hrun, h⟩ := flooded_run (by decide : 257 < 1000)
  obtain ⟨rest, hdue⟩ : ∃ rest,
      (link.client.channel.nextDue 200).2.1 = ⟨floodSeq 0, 2, []⟩ :: rest := by
    have hresent : (link.client.channel.nextDue 200).2.1 =
        link.client.channel.outbound.filterMap (·.resent 200) := rfl
    rw [hresent, h.outbound, List.range_succ_eq_map]
    exact ⟨_, rfl⟩
  obtain ⟨sent, packet, more, hsend, hserver, hkept, htoServer, hpayload, hcounter⟩ :=
    step_retransmit (A := Aead.transparent) applyBody ignoreBody hdue
      (canWrite_of_flooded (by decide) h.sending _)
  have hpacket : sent.toServer[257]? = some packet := by simp [htoServer, h.length]
  have hfresh : sent.server.session.Fresh packet.counter := by
    rw [hserver, hcounter, h.sending]
    exact h.fresh
  -- the window holds the seqs of the last 256 rounds, not that of the first
  have hforgotten : floodSeq 0 ∉ sent.server.channel.dedup.seen := by
    rw [hserver, h.windowed.seen_eq, h.dispatched]
    decide +kernel
  obtain ⟨final, hdeliver, -, -, hdispatched, -⟩ :=
    step_deliverToServer applyBody ignoreBody (inv_of_step h.inv hsend).toWired hpacket hpayload
      hfresh hforgotten 0
  have hflood : run (step Aead.transparent applyBody ignoreBody) (toyStart []) floodEvents =
      some final := run_append _ hrun (by simp [run, hsend, hdeliver])
  rw [hflood, Option.map_some, hdispatched, hkept, h.dispatched]
  decide +kernel

theorem redelivery_spaced_toy :
    ∃ link, run (step Aead.transparent applyBody ignoreBody) (toyStart [])
        [.send 2 [1] 0 0, .deliverToServer 0 0, .retransmit 200, .deliverToServer 1 0] =
          some link ∧
      link.dispatched.map (·.envelope.seq) = [1] ∧
      Spaced dedupWindow (link.dispatched.map (·.envelope.seq)) := by
  obtain ⟨link, hrun, hseqs⟩ := Option.map_eq_some_iff.1 (show
    (run (step Aead.transparent applyBody ignoreBody) (toyStart [])
      [.send 2 [1] 0 0, .deliverToServer 0 0, .retransmit 200, .deliverToServer 1 0]).map
      (fun link => link.dispatched.map (·.envelope.seq)) = some [1] from rfl)
  exact ⟨link, hrun, hseqs, redelivery_spaced crossed_toy hrun⟩

/-! ## Order -/

def isPredicate (envelope : ControlEnvelope) : Bool :=
  envelope.bodyType == ControlBodyType.predicateSetUpdate.asByte

def handedPredicates (link : Link Key ω δ χ) : List ControlEnvelope :=
  (link.dispatched.map Dispatched.envelope).filter isPredicate

def resending (link : Link Key ω δ χ) : Event ω → List ControlEnvelope
  | .retransmit now => (link.client.channel.nextDue now).2.1
  | _ => []

def HandedOver (link : Link Key ω δ χ) (seq : UInt32) : Prop :=
  ∃ record ∈ link.dispatched, record.envelope.seq = seq

instance (link : Link Key ω δ χ) (seq : UInt32) : Decidable (HandedOver link seq) :=
  inferInstanceAs (Decidable (∃ record ∈ link.dispatched, _))

/--
Once a newer predicate set has been enqueued an older one is retransmitted only
if it has been handed over, and that copy arrives while the server remembers it.
-/
structure NoOvertaking (link : Link Key ω δ χ) (event : Event ω) : Prop where
  resent : ∀ envelope ∈ link.resending event, isPredicate envelope = true →
    ∀ newer ∈ link.enqueued, isPredicate newer = true →
      newer.seq ≤ envelope.seq ∨ link.HandedOver envelope.seq
  arrives : ∀ envelope ∈ link.arriving event, isPredicate envelope = true →
    link.HandedOver envelope.seq → ∀ newer ∈ link.dispatched, isPredicate newer.envelope = true →
      newer.envelope.seq ≤ envelope.seq ∨ envelope.seq ∈ link.server.channel.dedup.seen

instance (link : Link Key ω δ χ) (event : Event ω) : Decidable (NoOvertaking link event) :=
  decidable_of_iff (_ ∧ _) ⟨fun h => ⟨h.1, h.2⟩, fun h => ⟨h.resent, h.arrives⟩⟩

/-- Of two packets the later has the newer predicate set, or a copy of one handed over. -/
def InOrder (handed : List Dispatched) (earlier later : Sent) : Prop :=
  ∀ first second, earlier.payload = .control first → later.payload = .control second →
    isPredicate first = true → isPredicate second = true →
      first.seq ≤ second.seq ∨ ∃ record ∈ handed, record.envelope.seq = second.seq

structure Sequenced (link : Link Key ω δ χ) : Prop where
  sent : link.toServer.Pairwise (InOrder link.dispatched)
  dispatched : link.dispatched.Pairwise (fun earlier later =>
    isPredicate earlier.envelope = true → isPredicate later.envelope = true →
      earlier.envelope.seq ≤ later.envelope.seq)

theorem Sequenced.change (hinv : Inv A link) (h : Sequenced link)
    (hguard : NoOvertaking link event) (hchange : Change A dispatch link event next) :
    Sequenced next := by
  have hsorted := (hinv.change hchange).dispatched_sorted
  cases hchange with
  | @enqueued bodyType body completion now channel envelope henqueue =>
      obtain ⟨henvelope, -⟩ := ControlChannel.enqueue_spec henqueue
      refine ⟨List.pairwise_append.2 ⟨h.sent, ?_, ?_⟩, h.dispatched⟩
      · rcases link.client.session.emit_cases A (.control envelope) with ⟨-, hemit⟩ | hemit
        · rw [hemit]
          exact List.pairwise_singleton _ _
        · rw [hemit]
          exact List.Pairwise.nil
      · intro earlier hearlier later hlater first second hfirst hsecond _ _
        rw [Session.payload_of_mem_emit A hlater, Payload.control.injEq] at hsecond
        have := hinv.enqueued_below first (hinv.sent_mem earlier hearlier first hfirst)
        left
        rw [← hsecond, henvelope]
        grind
  | @retransmitted now due hdue =>
      have hnew : ∀ later ∈ (link.client.session.emitAll A due).2, ∀ second,
          later.payload = .control second → second ∈ (link.client.channel.nextDue now).2.1 := by
        intro later hlater second hsecond
        have hmem := Session.payload_of_mem_emitAll A hlater
        rw [hdue, hsecond] at hmem
        simpa using hmem
      refine ⟨List.pairwise_append.2 ⟨h.sent, ?_, ?_⟩, h.dispatched⟩
      · refine List.pairwise_of_forall_mem_list ?_
        intro earlier hearlier later hlater first second hfirst hsecond hpred hpred'
        obtain ⟨old, hold, heq⟩ :=
          (link.client.channel.nextDue_spec now).2.1 first (hnew earlier hearlier first hfirst)
        exact hguard.resent second (hnew later hlater second hsecond) hpred' first
          (heq ▸ hinv.outbound_mem old hold) hpred
      · intro earlier hearlier later hlater first second hfirst hsecond hpred hpred'
        exact hguard.resent second (hnew later hlater second hsecond) hpred' first
          (hinv.sent_mem earlier hearlier first hfirst) hpred
  | @clientSpoke event session channel payloads handler hreads hseq houtbound hpayloads =>
      have hnew : ∀ earlier, ∀ later ∈ (session.emitAll A payloads).2,
          InOrder link.dispatched earlier later := by
        intro earlier later hlater first second _ hsecond
        exact absurd ⟨second, hsecond⟩ (hpayloads _ (Session.payload_of_mem_emitAll A hlater))
      exact ⟨List.pairwise_append.2 ⟨h.sent,
        List.pairwise_of_forall_mem_list fun earlier _ => hnew earlier,
        fun earlier _ => hnew earlier⟩, h.dispatched⟩
  | acked => exact ⟨h.sent, h.dispatched⟩
  | serverSpoke => exact ⟨h.sent, h.dispatched⟩
  | duplicate => exact ⟨h.sent, h.dispatched⟩
  | @dispatched index now packet envelope acceptor status hpacket hpayload hfresh hseen =>
      constructor
      · refine h.sent.imp fun hordered first second hfirst hsecond hpred hpred' => ?_
        exact (hordered first second hfirst hsecond hpred hpred').imp_right
          fun ⟨record, hrecord, hseq⟩ => ⟨record, List.mem_append_left _ hrecord, hseq⟩
      · refine List.pairwise_append.2 ⟨h.dispatched, List.pairwise_singleton _ _, ?_⟩
        intro earlier hearlier later hlater hpred hpred'
        have hlt := (List.pairwise_append.1 hsorted).2.2 earlier hearlier later hlater
        obtain rfl := List.mem_singleton.1 hlater
        obtain ⟨before, hbefore, hcarried, hcounter⟩ := hinv.dispatched_mem earlier hearlier
        -- a copy of what was handed over would have been remembered
        rcases hinv.up.related_of_lt h.sent hbefore (List.mem_of_getElem? hpacket)
          (hcounter ▸ hlt) _ _ hcarried hpayload hpred hpred' with hle | hcopy
        · exact hle
        · exact (hguard.arrives envelope (arriving_eq hpacket hpayload hfresh now) hpred' hcopy
            earlier hearlier hpred).resolve_right hseen

private theorem handedPredicates_inOrder (hinv : Inv A link) (h : Sequenced link) :
    link.handedPredicates.Pairwise (fun earlier later =>
      earlier = later ∨ Precedes link.enqueued earlier later) := by
  unfold handedPredicates
  rw [List.filter_map, List.pairwise_map]
  refine (h.dispatched.filter _).imp_of_mem ?_
  intro earlier later hearlier hlater hordered
  obtain ⟨hearlier, hpred⟩ := List.mem_filter.1 hearlier
  obtain ⟨hlater, hpred'⟩ := List.mem_filter.1 hlater
  have hle := hordered hpred hpred'
  rcases precedes_total (hinv.dispatched_enqueued hearlier)
    (hinv.dispatched_enqueued hlater) with heq | hbefore | hafter
  · exact .inl heq
  · exact .inr hbefore
  · have := hafter.related hinv.enqueued_sorted
    exact absurd hle (by grind)

/--
In every run in which no predicate set overtakes a newer one, predicate sets are
handed over in the order they were enqueued, and the last one handed over is the
newest of them.
-/
theorem predicate_sets_in_order (hcrossed : Crossed client server)
    (hguard : Along (step A dispatch handle) NoOvertaking
      (start client server src acceptor handler) events)
    (hrun : run (step A dispatch handle) (start client server src acceptor handler) events =
      some link) :
    link.handedPredicates.Pairwise (fun earlier later =>
      earlier = later ∨ Precedes link.enqueued earlier later) ∧
    ∀ last, link.handedPredicates.getLast? = some last →
      ∀ envelope ∈ link.handedPredicates,
        envelope = last ∨ Precedes link.enqueued envelope last := by
  have hall := run_invariant_of_guard (step A dispatch handle)
    (P := fun link => Inv A link ∧ Sequenced link)
    (fun link event next h hovertaking hstep =>
      ⟨inv_of_step h.1 hstep, h.2.change h.1 hovertaking (change_of_step h.1.toWired hstep)⟩)
    ⟨inv_start hcrossed src acceptor handler, List.Pairwise.nil, List.Pairwise.nil⟩ hguard hrun
  have horder := handedPredicates_inOrder hall.1 hall.2
  refine ⟨horder, fun last hlast envelope henvelope => ?_⟩
  obtain ⟨before, hsplit⟩ := List.getLast?_eq_some_iff.1 hlast
  rw [hsplit] at horder henvelope
  rcases List.mem_append.1 henvelope with hbefore | hself
  · exact (List.pairwise_append.1 horder).2.2 envelope hbefore last (List.mem_singleton.2 rfl)
  · exact .inl (List.mem_singleton.1 hself)

/-- The first set is lost, the second arrives, then the first one's retransmission. -/
theorem predicate_sets_overtaken :
    (run (step Aead.transparent applyBody ignoreBody) (toyStart [])
      [.send 2 [1] 0 0, .send 2 [2] 1 0, .deliverToServer 1 0, .retransmit 200,
        .deliverToServer 2 0]).map
      (fun link => (link.enqueued.map (·.body), link.handedPredicates.map (·.body),
        link.acceptor)) = some ([[1], [2]], [[2], [1]], [1]) := by
  rfl

/-- The ack of the first set is lost, and its retransmission comes after the second set. -/
def lateCopy : List (Event Nat) :=
  [.send 2 [1] 0 0, .deliverToServer 0 0, .send 2 [2] 1 0, .deliverToServer 1 0, .retransmit 200,
    .deliverToServer 2 0]

theorem predicate_sets_in_order_toy :
    ∃ link, run (step Aead.transparent applyBody ignoreBody) (toyStart []) lateCopy = some link ∧
      link.handedPredicates.map (·.body) = [[1], [2]] ∧
      link.handedPredicates.Pairwise (fun earlier later =>
        earlier = later ∨ Precedes link.enqueued earlier later) := by
  obtain ⟨link, hrun, hhanded⟩ := Option.map_eq_some_iff.1 (show
    (run (step Aead.transparent applyBody ignoreBody) (toyStart []) lateCopy).map
      (fun link => link.handedPredicates.map (·.body)) = some [[1], [2]] from rfl)
  exact ⟨link, hrun, hhanded, (predicate_sets_in_order crossed_toy (by decide +kernel) hrun).1⟩

end Results

end Yggdrasil.Chain.Link
