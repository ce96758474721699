import Yggdrasil.Chain.Reliability
import Yggdrasil.Ratatoskr.Flow

/-!
# Endpoints of a session

An endpoint owns one half of a Noise session and the reliability state bound to
it.  The functions here are the arms of the chain client's session loop; the
handling of inbound `Control` packets is shared with the heartbeat server.
-/

namespace Yggdrasil.Chain

open Foundation Ratatoskr

structure Endpoint (Key ω : Type) where
  session : Session Key
  channel : ControlChannel ω

structure Dispatched where
  counter : UInt64
  envelope : ControlEnvelope
  status : AckStatus
  deriving DecidableEq, Repr

structure Output (ω : Type) where
  sent : List Sent
  dispatched : List Dispatched
  resolved : List (OutboundEntry ω × SendResult)

def Output.empty {ω : Type} : Output ω := ⟨[], [], []⟩

abbrev Dispatcher (δ : Type) := δ → UInt8 → Bytes → δ × AckStatus

namespace Endpoint

variable {Key ω δ : Type} (A : Aead Key)

/-- A duplicate is acked `Ok` without consulting the dispatcher. -/
def receiveControl (dispatch : Dispatcher δ) (world : δ) (endpoint : Endpoint Key ω)
    (view : PacketView) : δ × Endpoint Key ω × Output ω :=
  match endpoint.session.decodeControl A view with
  | (session, .error _) => (world, { endpoint with session }, .empty)
  | (session, .ok envelope) =>
      match endpoint.channel.onInbound envelope with
      | (channel, .deliver envelope) =>
          let (world, status) := dispatch world envelope.bodyType envelope.body
          let (session, sent) := session.emit A (.controlAck ⟨envelope.seq, status⟩)
          (world, ⟨session, channel⟩,
            ⟨sent, [⟨view.counter.getD 0, envelope, status⟩], []⟩)
      | (channel, .duplicate) =>
          let (session, sent) := session.emit A (.controlAck ⟨envelope.seq, .ok⟩)
          (world, ⟨session, channel⟩, ⟨sent, [], []⟩)

def receiveControlAck (endpoint : Endpoint Key ω) (view : PacketView) :
    Endpoint Key ω × Output ω :=
  match endpoint.session.decodeControlAck A view with
  | (session, .error _) => ({ endpoint with session }, .empty)
  | (session, .ok ack) =>
      let (channel, resolved) := endpoint.channel.onAck ack
      (⟨session, channel⟩, ⟨[], [], resolved.toList⟩)

def receiveHeartbeatAck (endpoint : Endpoint Key ω) (view : PacketView) : Endpoint Key ω :=
  { endpoint with session := (endpoint.session.decodeHeartbeatAck A view).1 }

def receive (dispatch : Dispatcher δ) (world : δ) (endpoint : Endpoint Key ω)
    (bytes : Bytes) : δ × Endpoint Key ω × Output ω :=
  match parse bytes with
  | .error _ => (world, endpoint, .empty)
  | .ok view =>
      match view.packetType with
      | .heartbeatAck => (world, endpoint.receiveHeartbeatAck A view, .empty)
      | .control => endpoint.receiveControl A dispatch world view
      | .controlAck => (world, endpoint.receiveControlAck A view)
      | _ => (world, endpoint, .empty)

/-- A failure to encode the heartbeat ends the session. -/
def heartbeat (endpoint : Endpoint Key ω) (timestampMs : UInt64) :
    Option (Endpoint Key ω × List Sent) :=
  match endpoint.session.emit A (.heartbeat timestampMs 0) with
  | (_, []) => none
  | (session, sent) => some ({ endpoint with session }, sent)

def sendControl (endpoint : Endpoint Key ω) (bodyType : UInt8) (body : Bytes)
    (completion : ω) (now : Nat) : Option (Endpoint Key ω × ControlEnvelope × List Sent) := do
  let (channel, envelope) ← endpoint.channel.enqueue bodyType body completion now
  let (session, sent) := endpoint.session.emit A (.control envelope)
  some (⟨session, channel⟩, envelope, sent)

def retransmit (endpoint : Endpoint Key ω) (now : Nat) : Endpoint Key ω × Output ω :=
  let (channel, due, expired) := endpoint.channel.nextDue now
  let (session, sent) := endpoint.session.emitAll A (due.map Payload.control)
  (⟨session, channel⟩, ⟨sent, [], expired⟩)

/-- Leaving the session drops the channel, which fails every pending send. -/
def close (endpoint : Endpoint Key ω) : Endpoint Key ω × Output ω :=
  let (channel, aborted) := endpoint.channel.abortAll
  ({ endpoint with channel }, ⟨[], [], aborted⟩)

section Produced

variable {endpoint : Endpoint Key ω} {packet : Sent} {view : PacketView}

theorem receiveControl_cases (dispatch : Dispatcher δ) (world : δ)
    {envelope : ControlEnvelope} (hpayload : packet.payload = .control envelope)
    (h : Session.Produced A endpoint.session.sessionId endpoint.session.transport.recvKey
      packet)
    (hparse : parse packet.bytes = .ok view) :
    (¬ endpoint.session.Fresh packet.counter ∧ ∃ nonce,
      endpoint.receiveControl A dispatch world view =
        (world, ⟨endpoint.session.retune nonce, endpoint.channel⟩, .empty)) ∨
    (endpoint.session.Fresh packet.counter ∧
      envelope.seq ∈ endpoint.channel.dedup.seen ∧
      endpoint.receiveControl A dispatch world view =
        (world,
          ⟨((endpoint.session.accept packet.counter).emit A
              (.controlAck ⟨envelope.seq, .ok⟩)).1, endpoint.channel⟩,
          ⟨((endpoint.session.accept packet.counter).emit A
              (.controlAck ⟨envelope.seq, .ok⟩)).2, [], []⟩)) ∨
    (endpoint.session.Fresh packet.counter ∧
      envelope.seq ∉ endpoint.channel.dedup.seen ∧
      ∃ world' status, dispatch world envelope.bodyType envelope.body = (world', status) ∧
      endpoint.receiveControl A dispatch world view =
        (world',
          ⟨((endpoint.session.accept packet.counter).emit A
              (.controlAck ⟨envelope.seq, status⟩)).1,
            { endpoint.channel with dedup := endpoint.channel.dedup.insert envelope.seq }⟩,
          ⟨((endpoint.session.accept packet.counter).emit A
              (.controlAck ⟨envelope.seq, status⟩)).2,
            [⟨packet.counter, envelope, status⟩], []⟩)) := by
  have htype : packet.payload.codec.packetType = .control := by rw [hpayload]; rfl
  have hcounter : view.counter = some packet.counter := by
    rw [h.parse_eq, Except.ok.injEq] at hparse
    rw [← hparse]
  have hplain : packet.payload.plaintext = encodeEnvelope envelope := by rw [hpayload]; rfl
  unfold receiveControl Session.decodeControl
  by_cases hfresh : endpoint.session.Fresh packet.counter
  · right
    have hdecode := Session.decodeWith_fresh A Session.readControl h hfresh hparse
    have hfits := h.fits
    rw [hplain] at hdecode hfits
    rw [htype, Session.readControl_encode _ hfits] at hdecode
    rw [hdecode]
    unfold ControlChannel.onInbound
    by_cases hseen : envelope.seq ∈ endpoint.channel.dedup.seen
    · left
      refine ⟨hfresh, hseen, ?_⟩
      dsimp only
      rw [if_pos ((DedupWindow.contains_iff _ _).2 hseen)]
    · right
      refine ⟨hfresh, hseen, _, _, rfl, ?_⟩
      dsimp only
      rw [if_neg (fun hc => hseen ((DedupWindow.contains_iff _ _).1 hc)), hcounter]
      rfl
  · left
    obtain ⟨nonce, e, hdecode⟩ :=
      Session.decodeWith_stale A .control Session.readControl h hfresh hparse
    refine ⟨hfresh, nonce, ?_⟩
    rw [hdecode]

theorem receiveControlAck_cases {ack : ControlAck}
    (hpayload : packet.payload = .controlAck ack)
    (h : Session.Produced A endpoint.session.sessionId endpoint.session.transport.recvKey
      packet)
    (hparse : parse packet.bytes = .ok view) :
    (∃ nonce, endpoint.receiveControlAck A view =
      (⟨endpoint.session.retune nonce, endpoint.channel⟩, .empty)) ∨
    (endpoint.session.Fresh packet.counter ∧ endpoint.receiveControlAck A view =
      (⟨endpoint.session.accept packet.counter, (endpoint.channel.onAck ack).1⟩,
        ⟨[], [], (endpoint.channel.onAck ack).2.toList⟩)) := by
  have htype : packet.payload.codec.packetType = .controlAck := by rw [hpayload]; rfl
  have hplain : packet.payload.plaintext = encodeAck ack := by rw [hpayload]; rfl
  unfold receiveControlAck Session.decodeControlAck
  by_cases hfresh : endpoint.session.Fresh packet.counter
  · right
    have hdecode := Session.decodeWith_fresh A Session.readControlAck h hfresh hparse
    rw [hplain, htype, Session.readControlAck_encode] at hdecode
    refine ⟨hfresh, ?_⟩
    rw [hdecode]
  · left
    obtain ⟨nonce, e, hdecode⟩ :=
      Session.decodeWith_stale A .controlAck Session.readControlAck h hfresh hparse
    refine ⟨nonce, ?_⟩
    rw [hdecode]

theorem receiveHeartbeatAck_cases (endpoint : Endpoint Key ω) (view : PacketView) :
    (∃ counter, endpoint.session.Fresh counter ∧ endpoint.receiveHeartbeatAck A view =
      { endpoint with session := endpoint.session.accept counter }) ∨
    (∃ nonce, endpoint.receiveHeartbeatAck A view =
      { endpoint with session := endpoint.session.retune nonce }) := by
  unfold receiveHeartbeatAck Session.decodeHeartbeatAck Session.decodeWith
  rcases endpoint.session.decodePacket_cases A .heartbeatAck view with
    ⟨counter, plaintext, hopens, hdecode⟩ | ⟨-, nonce, e, hdecode⟩
  · left
    exact ⟨counter, hopens.fresh, by rw [hdecode]⟩
  · right
    exact ⟨nonce, by rw [hdecode]⟩

end Produced

end Endpoint

end Yggdrasil.Chain
