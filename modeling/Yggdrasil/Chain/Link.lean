import Yggdrasil.Foundation.Run
import Yggdrasil.Heartbeat.SessionState

/-!
# A chain client and a heartbeat server over one session

The link keeps every datagram ever sent in either direction.  Delivering any
of them at any time, or never, is loss, delay, reordering and duplication at
once.  Beside the two parties the state records what the sender enqueued, what
the receiver handed to its dispatcher and how each send was resolved.
-/

namespace Yggdrasil.Chain

open Foundation Ratatoskr Heartbeat

structure Link (Key ω δ χ : Type) where
  client : Endpoint Key ω
  server : SessionState Key
  acceptor : δ
  handler : χ
  toServer : List Sent
  toClient : List Sent
  enqueued : List ControlEnvelope
  dispatched : List Dispatched
  resolved : List (OutboundEntry ω × SendResult)

inductive Event (ω : Type) where
  | send (bodyType : UInt8) (body : Bytes) (completion : ω) (now : Nat)
  | retransmit (now : Nat)
  | heartbeat (timestampMs : UInt64)
  | outbound (envelope : ControlEnvelope)
  | deliverToServer (index : Nat) (now : UInt64)
  | deliverToClient (index : Nat)
  deriving DecidableEq, Repr

def Event.isSend {ω : Type} : Event ω → Bool
  | .send .. => true
  | _ => false

namespace Link

variable {Key ω δ χ : Type} (A : Aead Key) (dispatch : Dispatcher δ) (handle : Dispatcher χ)

def start (client server : Session Key) (src : SocketAddr) (acceptor : δ) (handler : χ) :
    Link Key ω δ χ where
  client := ⟨client, .new⟩
  server := .new server src
  acceptor := acceptor
  handler := handler
  toServer := []
  toClient := []
  enqueued := []
  dispatched := []
  resolved := []

def step (link : Link Key ω δ χ) : Event ω → Option (Link Key ω δ χ)
  | .send bodyType body completion now => do
      let (client, envelope, sent) ←
        link.client.sendControl A bodyType body completion now
      some { link with
        client
        toServer := link.toServer ++ sent
        enqueued := link.enqueued ++ [envelope] }
  | .retransmit now =>
      let (client, output) := link.client.retransmit A now
      some { link with
        client
        toServer := link.toServer ++ output.sent
        resolved := link.resolved ++ output.resolved }
  | .heartbeat timestampMs => do
      let (client, sent) ← link.client.heartbeat A timestampMs
      some { link with client, toServer := link.toServer ++ sent }
  | .outbound envelope =>
      let (server, sent) := link.server.handleOutbound A envelope
      some { link with server, toClient := link.toClient ++ sent }
  | .deliverToServer index now => do
      let packet ← link.toServer[index]?
      let (acceptor, server, output) :=
        link.server.receive A dispatch link.acceptor packet.bytes now
      some { link with
        acceptor
        server
        toClient := link.toClient ++ output.sent
        dispatched := link.dispatched ++ output.dispatched }
  | .deliverToClient index => do
      let packet ← link.toClient[index]?
      let (handler, client, output) :=
        link.client.receive A handle link.handler packet.bytes
      some { link with
        handler
        client
        toServer := link.toServer ++ output.sent
        resolved := link.resolved ++ output.resolved }

def close (link : Link Key ω δ χ) : Link Key ω δ χ :=
  let (client, output) := link.client.close
  { link with client, resolved := link.resolved ++ output.resolved }

def IsControl (payload : Payload) : Prop := ∃ envelope, payload = .control envelope

def IsControlAck (payload : Payload) : Prop := ∃ ack, payload = .controlAck ack

inductive Change (link : Link Key ω δ χ) : Event ω → Link Key ω δ χ → Prop
  | enqueued {bodyType : UInt8} {body : Bytes} {completion : ω} {now : Nat}
      {channel : ControlChannel ω} {envelope : ControlEnvelope} :
      link.client.channel.enqueue bodyType body completion now = some (channel, envelope) →
      Change link (.send bodyType body completion now) { link with
        client := ⟨(link.client.session.emit A (.control envelope)).1, channel⟩
        toServer := link.toServer ++ (link.client.session.emit A (.control envelope)).2
        enqueued := link.enqueued ++ [envelope] }
  | retransmitted (now : Nat) {due : List Payload} :
      due = (link.client.channel.nextDue now).2.1.map Payload.control →
      Change link (.retransmit now) { link with
        client := ⟨(link.client.session.emitAll A due).1,
          (link.client.channel.nextDue now).1⟩
        toServer := link.toServer ++ (link.client.session.emitAll A due).2
        resolved := link.resolved ++ (link.client.channel.nextDue now).2.2 }
  /-- The client reads a packet, or not, and sends anything but an envelope. -/
  | clientSpoke {event : Event ω} {session : Session Key} {channel : ControlChannel ω}
      {payloads : List Payload} (handler : χ) :
      link.client.session.Reads session →
      channel.nextSeq = link.client.channel.nextSeq →
      channel.outbound = link.client.channel.outbound →
      (∀ payload ∈ payloads, ¬ IsControl payload) →
      Change link event { link with
        client := ⟨(session.emitAll A payloads).1, channel⟩
        handler
        toServer := link.toServer ++ (session.emitAll A payloads).2 }
  | acked {event : Event ω} {packet : Sent} {ack : ControlAck} :
      packet ∈ link.toClient → packet.payload = .controlAck ack →
      link.client.session.Fresh packet.counter →
      Change link event { link with
        client := ⟨link.client.session.accept packet.counter,
          (link.client.channel.onAck ack).1⟩
        resolved := link.resolved ++ (link.client.channel.onAck ack).2.toList }
  /-- The server reads a packet, or not, and sends anything but an ack of an envelope. -/
  | serverSpoke {event : Event ω} {session : Session Key} {payloads : List Payload}
      (nextOutboundSeq : UInt32) :
      link.server.session.Reads session →
      (∀ payload ∈ payloads, ¬ IsControlAck payload) →
      Change link event { link with
        server := { link.server with
          session := (session.emitAll A payloads).1
          nextOutboundSeq }
        toClient := link.toClient ++ (session.emitAll A payloads).2 }
  | duplicate {index : Nat} {now : UInt64} {packet : Sent} {envelope : ControlEnvelope} :
      link.toServer[index]? = some packet → packet.payload = .control envelope →
      link.server.session.Fresh packet.counter →
      envelope.seq ∈ link.server.channel.dedup.seen →
      Change link (.deliverToServer index now) { link with
        server := { link.server with
          session := ((link.server.session.accept packet.counter).emit A
            (.controlAck ⟨envelope.seq, .ok⟩)).1 }
        toClient := link.toClient ++ ((link.server.session.accept packet.counter).emit A
          (.controlAck ⟨envelope.seq, .ok⟩)).2 }
  | dispatched {index : Nat} {now : UInt64} {packet : Sent} {envelope : ControlEnvelope}
      {acceptor : δ} {status : AckStatus} :
      link.toServer[index]? = some packet → packet.payload = .control envelope →
      link.server.session.Fresh packet.counter →
      envelope.seq ∉ link.server.channel.dedup.seen →
      dispatch link.acceptor envelope.bodyType envelope.body = (acceptor, status) →
      Change link (.deliverToServer index now) { link with
        acceptor
        server := { link.server with
          session := ((link.server.session.accept packet.counter).emit A
            (.controlAck ⟨envelope.seq, status⟩)).1
          channel := { link.server.channel with
            dedup := link.server.channel.dedup.insert envelope.seq } }
        toClient := link.toClient ++ ((link.server.session.accept packet.counter).emit A
          (.controlAck ⟨envelope.seq, status⟩)).2
        dispatched := link.dispatched ++ [⟨packet.counter, envelope, status⟩] }

structure Wired (link : Link Key ω δ χ) : Prop where
  up : Flow A link.client.session link.server.session link.toServer
  down : Flow A link.server.session link.client.session link.toClient

variable {A dispatch handle} {link next : Link Key ω δ χ}

private theorem emitAll_singleton (session : Session Key) (payload : Payload) :
    session.emitAll A [payload] = session.emit A payload := by
  simp [Session.emitAll]

variable {event : Event ω} {packet : Sent}

private theorem change_of_server {session : Session Key} (payloads : List Payload)
    (nextOutboundSeq : UInt32) (hreads : link.server.session.Reads session)
    (hpayloads : ∀ payload ∈ payloads, ¬ IsControlAck payload) (hnext : { link with
      server := { link.server with
        session := (session.emitAll A payloads).1
        nextOutboundSeq }
      toClient := link.toClient ++ (session.emitAll A payloads).2 } = next) :
    Change A dispatch link event next :=
  hnext ▸ .serverSpoke nextOutboundSeq hreads hpayloads

private theorem change_of_client {session : Session Key} (channel : ControlChannel ω)
    (payloads : List Payload) (handler : χ) (hreads : link.client.session.Reads session)
    (hseq : channel.nextSeq = link.client.channel.nextSeq)
    (houtbound : channel.outbound = link.client.channel.outbound)
    (hpayloads : ∀ payload ∈ payloads, ¬ IsControl payload) (hnext : { link with
      client := ⟨(session.emitAll A payloads).1, channel⟩
      handler
      toServer := link.toServer ++ (session.emitAll A payloads).2 } = next) :
    Change A dispatch link event next :=
  hnext ▸ .clientSpoke handler hreads hseq houtbound hpayloads

private theorem change_of_heartbeat (view : PacketView) (now : UInt64) :
    Change A dispatch link event { link with
      server := (link.server.handleHeartbeat A view now).1
      toClient := link.toClient ++
        ((link.server.handleHeartbeat A view now).2.map Prod.snd).getD [] } := by
  rcases link.server.handleHeartbeat_cases A view now with
    ⟨counter, answer, hfresh, heq⟩ | ⟨counter, hfresh, heq⟩ | ⟨nonce, heq⟩
  · refine change_of_server [.heartbeatAck answer.counter now] link.server.nextOutboundSeq
      (.accepted hfresh) ?_ ?_
    · rintro payload hpayload ⟨ack, rfl⟩
      simp at hpayload
    · rw [heq, emitAll_singleton]
      rfl
  · refine change_of_server [] link.server.nextOutboundSeq (.accepted hfresh) (by simp) ?_
    rw [heq]
    rfl
  · refine change_of_server [] link.server.nextOutboundSeq (.rejected nonce) (by simp) ?_
    rw [heq]
    rfl

private theorem parse_produced {sessionId : SessionId} {key : Key}
    (h : Session.Produced A sessionId key packet) :
    ∃ view, parse packet.bytes = .ok view ∧
      view.packetType = packet.payload.codec.packetType :=
  ⟨_, h.parse_eq, rfl⟩

private theorem change_of_deliverToServer (hwired : Wired A link) {index : Nat} {now : UInt64}
    (hpacket : link.toServer[index]? = some packet) :
    Change A dispatch link (.deliverToServer index now) { link with
      acceptor := (link.server.receive A dispatch link.acceptor packet.bytes now).1
      server := (link.server.receive A dispatch link.acceptor packet.bytes now).2.1
      toClient := link.toClient ++
        (link.server.receive A dispatch link.acceptor packet.bytes now).2.2.sent
      dispatched := link.dispatched ++
        (link.server.receive A dispatch link.acceptor packet.bytes now).2.2.dispatched } := by
  have hproduced := hwired.up.produced packet (List.mem_of_getElem? hpacket)
  obtain ⟨view, hparse, htype⟩ := parse_produced hproduced
  have hignored : Change A dispatch link (.deliverToServer index now) link :=
    change_of_server [] link.server.nextOutboundSeq .same (by simp)
      (by simp [Session.emitAll])
  unfold SessionState.receive
  cases hpayload : packet.payload with
  | heartbeat timestampMs flags =>
      simp only [hparse, htype, hpayload, Payload.codec, Codec.packetType, List.append_nil]
      exact change_of_heartbeat view now
  | heartbeatAck echoedCounter serverTsMs =>
      simpa only [hparse, htype, hpayload, Payload.codec, Codec.packetType, Output.empty,
        List.append_nil] using hignored
  | rekey =>
      simpa only [hparse, htype, hpayload, Payload.codec, Codec.packetType, Output.empty,
        List.append_nil] using hignored
  | controlAck ack =>
      simpa only [hparse, htype, hpayload, Payload.codec, Codec.packetType, Output.empty,
        List.append_nil] using hignored
  | control envelope =>
      simp only [hparse, htype, hpayload, Payload.codec, Codec.packetType,
        SessionState.handleControl]
      rcases Endpoint.receiveControl_cases A dispatch link.acceptor hpayload hproduced hparse
        with ⟨-, nonce, heq⟩ | ⟨hfresh, hseen, heq⟩ |
          ⟨hfresh, hseen, acceptor, status, hdispatch, heq⟩
      · refine change_of_server [] link.server.nextOutboundSeq (.rejected nonce) (by simp) ?_
        rw [heq]
        simp [Session.emitAll, Output.empty]
      · rw [heq]
        simpa using Change.duplicate hpacket hpayload hfresh hseen
      · rw [heq]
        exact Change.dispatched hpacket hpayload hfresh hseen hdispatch

private theorem change_of_deliverToClient (hwired : Wired A link)
    (hpacket : packet ∈ link.toClient) :
    Change A dispatch link event { link with
      handler := (link.client.receive A handle link.handler packet.bytes).1
      client := (link.client.receive A handle link.handler packet.bytes).2.1
      toServer := link.toServer ++
        (link.client.receive A handle link.handler packet.bytes).2.2.sent
      resolved := link.resolved ++
        (link.client.receive A handle link.handler packet.bytes).2.2.resolved } := by
  have hproduced := hwired.down.produced packet hpacket
  obtain ⟨view, hparse, htype⟩ := parse_produced hproduced
  have hread : ∀ {session : Session Key}, link.client.session.Reads session →
      Change A dispatch link event { link with
        client := { link.client with session } } := by
    intro session hreads
    exact change_of_client link.client.channel [] link.handler hreads rfl rfl (by simp)
      (by simp [Session.emitAll])
  unfold Endpoint.receive
  cases hpayload : packet.payload with
  | heartbeat timestampMs flags =>
      simpa only [hparse, htype, hpayload, Payload.codec, Codec.packetType, Output.empty,
        List.append_nil] using hread .same
  | rekey =>
      simpa only [hparse, htype, hpayload, Payload.codec, Codec.packetType, Output.empty,
        List.append_nil] using hread .same
  | heartbeatAck echoedCounter serverTsMs =>
      simp only [hparse, htype, hpayload, Payload.codec, Codec.packetType, Output.empty,
        List.append_nil]
      rcases link.client.receiveHeartbeatAck_cases A view with
        ⟨counter, hfresh, heq⟩ | ⟨nonce, heq⟩
      · rw [heq]
        exact hread (.accepted hfresh)
      · rw [heq]
        exact hread (.rejected nonce)
  | controlAck ack =>
      simp only [hparse, htype, hpayload, Payload.codec, Codec.packetType]
      rcases Endpoint.receiveControlAck_cases A hpayload hproduced hparse with
        ⟨nonce, heq⟩ | ⟨hfresh, heq⟩
      · rw [heq]
        simpa [Output.empty] using hread (.rejected nonce)
      · rw [heq]
        simpa using Change.acked hpacket hpayload hfresh
  | control envelope =>
      simp only [hparse, htype, hpayload, Payload.codec, Codec.packetType]
      have hack : ∀ status, ∀ payload ∈ [Payload.controlAck ⟨envelope.seq, status⟩],
          ¬ IsControl payload := by
        rintro status payload hpayload ⟨envelope, rfl⟩
        simp at hpayload
      rcases Endpoint.receiveControl_cases A handle link.handler hpayload hproduced hparse
        with ⟨-, nonce, heq⟩ | ⟨hfresh, hseen, heq⟩ |
          ⟨hfresh, hseen, handler, status, hdispatch, heq⟩
      · rw [heq]
        simpa [Output.empty] using hread (.rejected nonce)
      · refine change_of_client link.client.channel _ link.handler (.accepted hfresh) rfl rfl
          (hack .ok) ?_
        rw [heq, emitAll_singleton]
        simp
      · refine change_of_client { link.client.channel with
            dedup := link.client.channel.dedup.insert envelope.seq } _ handler
          (.accepted hfresh) rfl rfl (hack status) ?_
        rw [heq, emitAll_singleton]
        simp

theorem change_of_step (hwired : Wired A link)
    (hstep : step A dispatch handle link event = some next) :
    Change A dispatch link event next := by
  cases event with
  | send bodyType body completion now =>
      simp only [step, Endpoint.sendControl] at hstep
      cases henqueue : link.client.channel.enqueue bodyType body completion now with
      | none => simp [henqueue] at hstep
      | some result =>
          obtain ⟨channel, envelope⟩ := result
          simp only [henqueue, Option.bind_eq_bind, Option.bind_some,
            Option.some.injEq] at hstep
          exact hstep ▸ Change.enqueued henqueue
  | retransmit now =>
      simp only [step, Endpoint.retransmit, Option.some.injEq] at hstep
      exact hstep ▸ Change.retransmitted now rfl
  | heartbeat timestampMs =>
      have hpayload : ∀ payload ∈ [Payload.heartbeat timestampMs 0], ¬ IsControl payload := by
        rintro payload hpayload ⟨envelope, rfl⟩
        simp at hpayload
      refine change_of_client link.client.channel _ link.handler .same rfl rfl hpayload ?_
      simp only [step, Endpoint.heartbeat] at hstep
      rw [emitAll_singleton]
      rcases hemit : link.client.session.emit A (.heartbeat timestampMs 0) with
        ⟨session, _ | ⟨packet, rest⟩⟩
      · simp [hemit] at hstep
      · simpa [hemit] using hstep
  | outbound envelope =>
      have hpayload : ∀ payload ∈
          [Payload.control { envelope with seq := link.server.nextOutboundSeq }],
          ¬ IsControlAck payload := by
        rintro payload hpayload ⟨ack, rfl⟩
        simp at hpayload
      refine change_of_server _ (link.server.nextOutboundSeq + 1) .same hpayload ?_
      simp only [step, SessionState.handleOutbound, Option.some.injEq] at hstep
      rw [emitAll_singleton]
      exact hstep
  | deliverToServer index now =>
      simp only [step] at hstep
      cases hpacket : link.toServer[index]? with
      | none => simp [hpacket] at hstep
      | some packet =>
          simp only [hpacket, Option.bind_eq_bind, Option.bind_some,
            Option.some.injEq] at hstep
          exact hstep ▸ change_of_deliverToServer hwired hpacket
  | deliverToClient index =>
      simp only [step] at hstep
      cases hpacket : link.toClient[index]? with
      | none => simp [hpacket] at hstep
      | some packet =>
          simp only [hpacket, Option.bind_eq_bind, Option.bind_some,
            Option.some.injEq] at hstep
          exact hstep ▸ change_of_deliverToClient hwired (List.mem_of_getElem? hpacket)

theorem Wired.change (h : Wired A link)
    (hchange : Change A dispatch link event next) : Wired A next := by
  cases hchange with
  | enqueued => exact ⟨h.up.emit _, h.down.emit_receiver _⟩
  | retransmitted => exact ⟨h.up.emitAll _, h.down.emitAll_receiver _⟩
  | clientSpoke handler hreads =>
      exact ⟨(h.up.reads_sender hreads).emitAll _,
        (h.down.reads_receiver hreads).emitAll_receiver _⟩
  | acked hpacket hpayload hfresh =>
      exact ⟨h.up.reads_sender (.accepted hfresh), h.down.reads_receiver (.accepted hfresh)⟩
  | serverSpoke seq hreads =>
      exact ⟨(h.up.reads_receiver hreads).emitAll_receiver _,
        (h.down.reads_sender hreads).emitAll _⟩
  | duplicate hpacket hpayload hfresh =>
      exact ⟨(h.up.reads_receiver (.accepted hfresh)).emit_receiver _,
        (h.down.reads_sender (.accepted hfresh)).emit _⟩
  | dispatched hpacket hpayload hfresh =>
      exact ⟨(h.up.reads_receiver (.accepted hfresh)).emit_receiver _,
        (h.down.reads_sender (.accepted hfresh)).emit _⟩

end Link

end Yggdrasil.Chain
