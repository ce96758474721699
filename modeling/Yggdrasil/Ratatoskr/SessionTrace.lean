import Yggdrasil.Ratatoskr.Session

/-!
# Traces of a session

A session is driven by any mix of its five `decode_*` entry points, which
share one counter.  This file treats the codecs uniformly, describes what a
sequence of inbound packets does to the session, and what a receiver makes of
the packets its peer produced when the link loses, repeats and forges packets.
-/

namespace Yggdrasil.Ratatoskr

open Foundation

inductive Codec where
  | heartbeat
  | heartbeatAck
  | rekey
  | control
  | controlAck
  deriving DecidableEq, Repr

def Codec.packetType : Codec → PacketType
  | heartbeat => .heartbeat
  | heartbeatAck => .heartbeatAck
  | rekey => .rekey
  | control => .control
  | controlAck => .controlAck

@[simp] theorem Codec.hasCounter_packetType (codec : Codec) :
    codec.packetType.hasCounter = true := by
  cases codec <;> rfl

inductive Payload where
  | heartbeat (timestampMs : UInt64) (flags : UInt8)
  | heartbeatAck (echoedCounter serverTsMs : UInt64)
  | rekey
  | control (envelope : ControlEnvelope)
  | controlAck (ack : ControlAck)
  deriving DecidableEq, Repr

inductive Decoded where
  | heartbeat (value : DecodedHeartbeat)
  | heartbeatAck (value : DecodedHeartbeatAck)
  | rekey (counter : UInt64)
  | control (envelope : ControlEnvelope)
  | controlAck (ack : ControlAck)
  deriving DecidableEq, Repr

namespace Payload

def codec : Payload → Codec
  | heartbeat .. => .heartbeat
  | heartbeatAck .. => .heartbeatAck
  | rekey => .rekey
  | control _ => .control
  | controlAck _ => .controlAck

def plaintext : Payload → Bytes
  | heartbeat timestampMs flags => encodeHeartbeatPlaintext timestampMs flags
  | heartbeatAck echoedCounter serverTsMs =>
      encodeHeartbeatAckPlaintext echoedCounter serverTsMs
  | rekey => []
  | control envelope => encodeEnvelope envelope
  | controlAck ack => encodeAck ack

def decoded (counter : UInt64) : Payload → Decoded
  | heartbeat timestampMs flags => .heartbeat ⟨counter, timestampMs, flags⟩
  | heartbeatAck echoedCounter serverTsMs =>
      .heartbeatAck ⟨counter, echoedCounter, serverTsMs⟩
  | rekey => .rekey counter
  | control envelope => .control envelope
  | controlAck ack => .controlAck ack

end Payload

def Codec.read (codec : Codec) (counter : UInt64) (plaintext : Bytes) :
    Except Error Decoded :=
  match codec with
  | heartbeat => (Session.readHeartbeat counter plaintext).map .heartbeat
  | heartbeatAck => (Session.readHeartbeatAck counter plaintext).map .heartbeatAck
  | rekey => (Session.readRekey counter plaintext).map .rekey
  | control => (Session.readControl counter plaintext).map .control
  | controlAck => (Session.readControlAck counter plaintext).map .controlAck

theorem length_body_le_encodeEnvelope (envelope : ControlEnvelope) :
    envelope.body.length ≤ (encodeEnvelope envelope).length := by
  simp [encodeEnvelope, Postcard.encodeVec]
  omega

/-! Each reader returns what was encoded, whenever the plaintext fits a packet. -/

theorem Session.readHeartbeat_encode (counter timestampMs : UInt64) (flags : UInt8) :
    readHeartbeat counter (encodeHeartbeatPlaintext timestampMs flags) =
      .ok ⟨counter, timestampMs, flags⟩ := by
  rw [readHeartbeat, decodeHeartbeatPlaintext_encode]
  rfl

theorem Session.readHeartbeatAck_encode (counter echoedCounter serverTsMs : UInt64) :
    readHeartbeatAck counter (encodeHeartbeatAckPlaintext echoedCounter serverTsMs) =
      .ok ⟨counter, echoedCounter, serverTsMs⟩ := by
  rw [readHeartbeatAck, decodeHeartbeatAckPlaintext_encode]
  rfl

theorem Session.readControl_encode (counter : UInt64) {envelope : ControlEnvelope}
    (hfits : (encodeEnvelope envelope).length + aeadTagLen ≤ maxPacketLen) :
    readControl counter (encodeEnvelope envelope) = .ok envelope := by
  have hbody : envelope.body.length < 2 ^ 64 := by
    have hle := length_body_le_encodeEnvelope envelope
    have hmax : maxPacketLen < 2 ^ 64 := by decide
    omega
  have hread := decodeEnvelope_suffix hbody []
  rw [List.append_nil] at hread
  rw [readControl, Postcard.fromBytes, hread]
  rfl

theorem Session.readControlAck_encode (counter : UInt64) (ack : ControlAck) :
    readControlAck counter (encodeAck ack) = .ok ack := by
  have hread := decodeAck_suffix ack []
  rw [List.append_nil] at hread
  rw [readControlAck, Postcard.fromBytes, hread]
  rfl

theorem Payload.read_plaintext (payload : Payload) (counter : UInt64)
    (hfits : payload.plaintext.length + aeadTagLen ≤ maxPacketLen) :
    payload.codec.read counter payload.plaintext = .ok (payload.decoded counter) := by
  cases payload with
  | heartbeat timestampMs flags =>
      exact congrArg (Except.map _) (Session.readHeartbeat_encode _ _ _)
  | heartbeatAck echoedCounter serverTsMs =>
      exact congrArg (Except.map _) (Session.readHeartbeatAck_encode _ _ _)
  | rekey => rfl
  | control envelope => exact congrArg (Except.map _) (Session.readControl_encode _ hfits)
  | controlAck ack => exact congrArg (Except.map _) (Session.readControlAck_encode _ _)

namespace Session

variable {Key : Type} (A : Aead Key)

def encode (session : Session Key) : Payload → Session Key × Except Error (UInt64 × Bytes)
  | .heartbeat timestampMs flags => session.encodeHeartbeat A timestampMs flags
  | .heartbeatAck echoedCounter serverTsMs =>
      session.encodeHeartbeatAck A echoedCounter serverTsMs
  | .rekey => session.encodeRekey A
  | .control envelope => session.encodeControl A envelope
  | .controlAck ack => session.encodeControlAck A ack

def decode (session : Session Key) (codec : Codec) (view : PacketView) :
    Session Key × Except Error Decoded :=
  match codec with
  | .heartbeat => (session.decodeHeartbeat A view).map id (·.map .heartbeat)
  | .heartbeatAck => (session.decodeHeartbeatAck A view).map id (·.map .heartbeatAck)
  | .rekey => (session.decodeRekey A view).map id (·.map .rekey)
  | .control => (session.decodeControl A view).map id (·.map .control)
  | .controlAck => (session.decodeControlAck A view).map id (·.map .controlAck)

theorem encode_eq (session : Session Key) (payload : Payload) :
    session.encode A payload =
      session.encodeWith A payload.codec.packetType payload.plaintext := by
  cases payload <;> rfl

private theorem decodeWith_map {α β : Type} (expected : PacketType)
    (read : UInt64 → Bytes → Except Error α) (f : α → β) (session : Session Key)
    (view : PacketView) :
    (session.decodeWith A expected read view).map id (·.map f) =
      session.decodeWith A expected (fun counter plaintext => (read counter plaintext).map f)
        view := by
  unfold decodeWith
  rcases session.decodePacket A expected view with ⟨session', e | plaintext⟩ <;> rfl

theorem decode_eq (session : Session Key) (codec : Codec) (view : PacketView) :
    session.decode A codec view =
      session.decodeWith A codec.packetType codec.read view := by
  cases codec <;> exact decodeWith_map A _ _ _ session view

theorem decode_cases (session : Session Key) (codec : Codec) (view : PacketView) :
    (∃ counter plaintext, session.Opens A codec.packetType view counter plaintext ∧
      session.decode A codec view =
        (session.accept counter, codec.read counter plaintext)) ∨
    ((∀ counter plaintext, ¬ session.Opens A codec.packetType view counter plaintext) ∧
      ∃ nonce e, session.decode A codec view = (session.retune nonce, .error e)) := by
  rw [decode_eq]
  unfold decodeWith
  rcases session.decodePacket_cases A codec.packetType view with
    ⟨counter, plaintext, hopens, hdecode⟩ | ⟨hclosed, nonce, e, hdecode⟩
  · left
    refine ⟨counter, plaintext, hopens, ?_⟩
    rw [hdecode, hopens.hasCounter]
    rfl
  · right
    refine ⟨hclosed, nonce, e, ?_⟩
    rw [hdecode]

end Session

/-! ## Sequences of inbound packets -/

structure Inbound where
  codec : Codec
  view : PacketView
  deriving DecidableEq, Repr

namespace Session

variable {Key : Type} (A : Aead Key)

def receive (session : Session Key) (inbound : Inbound) : Session Key :=
  (session.decode A inbound.codec inbound.view).1

def passes (session : Session Key) (inbound : Inbound) : Bool :=
  (session.decodePacket A inbound.codec.packetType inbound.view).2.isOk

def passed (session : Session Key) : List Inbound → List PacketView
  | [] => []
  | inbound :: rest =>
      if session.passes A inbound then
        inbound.view :: passed (session.receive A inbound) rest
      else passed (session.receive A inbound) rest

def verdicts (session : Session Key) : List Inbound → List (Except Error Decoded)
  | [] => []
  | inbound :: rest =>
      (session.decode A inbound.codec inbound.view).2 ::
        verdicts (session.receive A inbound) rest

theorem receive_cases (session : Session Key) (inbound : Inbound) :
    (∃ counter plaintext,
      session.Opens A inbound.codec.packetType inbound.view counter plaintext ∧
      session.passes A inbound = true ∧
      session.receive A inbound = session.accept counter) ∨
    (session.passes A inbound = false ∧
      ∃ nonce, session.receive A inbound = session.retune nonce) := by
  unfold passes receive
  rw [decode_eq]
  unfold decodeWith
  rcases session.decodePacket_cases A inbound.codec.packetType inbound.view with
    ⟨counter, plaintext, hopens, hdecode⟩ | ⟨-, nonce, e, hdecode⟩
  · left
    refine ⟨counter, plaintext, hopens, ?_, ?_⟩
    · rw [hdecode]
      rfl
    · rw [hdecode]
  · right
    refine ⟨?_, nonce, ?_⟩
    · rw [hdecode]
      rfl
    · rw [hdecode]

private theorem decodePacket_retune (session : Session Key) (nonce : UInt64)
    (expected : PacketType) (view : PacketView) :
    ∃ nonce', (session.retune nonce).decodePacket A expected view =
      ((session.decodePacket A expected view).1.retune nonce',
        (session.decodePacket A expected view).2) := by
  have hid : (session.retune nonce).sessionId = session.sessionId := rfl
  have hlast : (session.retune nonce).lastSeenCounter = session.lastSeenCounter := rfl
  have hset : ∀ counter, (session.retune nonce).transport.setReceivingNonce counter =
      session.transport.setReceivingNonce counter := fun _ => rfl
  unfold decodePacket
  simp only [hid, hlast, hset]
  split_ifs with htype hsession
  · exact ⟨nonce, rfl⟩
  · exact ⟨nonce, rfl⟩
  cases view.counter with
  | none => exact ⟨nonce, rfl⟩
  | some counter =>
      -- past the replay check both sessions run the same read on the same transport
      dsimp only
      generalize (session.transport.setReceivingNonce counter).readMessage A view.body
        maxPacketLen = result
      obtain ⟨transport, outcome⟩ := result
      cases session.lastSeenCounter with
      | none =>
          cases outcome with
          | error e => exact ⟨transport.receivingNonce, rfl⟩
          | ok plaintext => exact ⟨transport.receivingNonce, rfl⟩
      | some last =>
          dsimp only
          split_ifs with hle
          · exact ⟨nonce, rfl⟩
          cases outcome with
          | error e => exact ⟨transport.receivingNonce, rfl⟩
          | ok plaintext => exact ⟨transport.receivingNonce, rfl⟩

private theorem decode_retune (session : Session Key) (nonce : UInt64) (codec : Codec)
    (view : PacketView) :
    ∃ nonce', (session.retune nonce).decode A codec view =
      ((session.decode A codec view).1.retune nonce', (session.decode A codec view).2) := by
  obtain ⟨nonce', hpacket⟩ := decodePacket_retune A session nonce codec.packetType view
  refine ⟨nonce', ?_⟩
  rw [decode_eq, decode_eq]
  unfold decodeWith
  rw [hpacket]
  rcases session.decodePacket A codec.packetType view with ⟨session', e | plaintext⟩ <;> rfl

theorem verdicts_retune (session : Session Key) (nonce : UInt64) (inbounds : List Inbound) :
    (session.retune nonce).verdicts A inbounds = session.verdicts A inbounds := by
  induction inbounds generalizing session nonce with
  | nil => rfl
  | cons inbound rest ih =>
      obtain ⟨nonce', hdecode⟩ := decode_retune A session nonce inbound.codec inbound.view
      simp only [verdicts, receive, hdecode]
      rw [ih]

def CounterLt (earlier later : PacketView) : Prop :=
  ∃ counter counter', earlier.counter = some counter ∧ later.counter = some counter' ∧
    counter < counter'

theorem Fresh.of_accept {session : Session Key} {accepted counter : UInt64}
    (hnew : session.Fresh accepted) (h : (session.accept accepted).Fresh counter) :
    accepted < counter ∧ session.Fresh counter := by
  have hlt : accepted < counter := h accepted rfl
  refine ⟨hlt, fun last hlast => ?_⟩
  have := hnew last hlast
  grind

private theorem mem_passed {session : Session Key} {inbounds : List Inbound}
    {view : PacketView} (h : view ∈ session.passed A inbounds) :
    ∃ counter plaintext, view.counter = some counter ∧ session.Fresh counter ∧
      A.decrypt session.transport.recvKey counter view.body = some plaintext := by
  induction inbounds generalizing session with
  | nil => simp [passed] at h
  | cons inbound rest ih =>
      unfold passed at h
      rcases session.receive_cases A inbound with
        ⟨counter, plaintext, hopens, hpass, hreceive⟩ | ⟨hfail, nonce, hreceive⟩
      · rw [if_pos hpass, hreceive] at h
        rcases List.mem_cons.1 h with rfl | h
        · exact ⟨counter, plaintext, hopens.hasCounter, hopens.fresh, hopens.opens⟩
        · obtain ⟨later, text, hcounter, hfresh, hopen⟩ := ih h
          exact ⟨later, text, hcounter, (Fresh.of_accept hopens.fresh hfresh).2, hopen⟩
      · rw [if_neg (by simp [hfail]), hreceive] at h
        obtain ⟨counter, plaintext, hcounter, hfresh, hopen⟩ := ih h
        exact ⟨counter, plaintext, hcounter, hfresh, hopen⟩

theorem passed_pairwise (session : Session Key) (inbounds : List Inbound) :
    (session.passed A inbounds).Pairwise CounterLt := by
  induction inbounds generalizing session with
  | nil => exact List.Pairwise.nil
  | cons inbound rest ih =>
      unfold passed
      rcases session.receive_cases A inbound with
        ⟨counter, plaintext, hopens, hpass, hreceive⟩ | ⟨hfail, nonce, hreceive⟩
      · rw [if_pos hpass, hreceive]
        refine List.Pairwise.cons ?_ (ih _)
        intro view hview
        obtain ⟨later, -, hcounter, hfresh, -⟩ := mem_passed A hview
        exact ⟨counter, later, hopens.hasCounter, hcounter,
          (Fresh.of_accept hopens.fresh hfresh).1⟩
      · rw [if_neg (by simp [hfail])]
        exact ih _

theorem passed_bodies_nodup (session : Session Key) (inbounds : List Inbound) :
    ((session.passed A inbounds).map PacketView.body).Nodup := by
  rw [List.Nodup, List.pairwise_map]
  refine (session.passed_pairwise A inbounds).imp_of_mem ?_
  intro earlier later hearlier hlater hlt hbody
  obtain ⟨counter, counter', hcounter, hcounter', hless⟩ := hlt
  obtain ⟨c, plaintext, hc, -, hopen⟩ := mem_passed A hearlier
  obtain ⟨c', plaintext', hc', -, hopen'⟩ := mem_passed A hlater
  rw [hbody] at hopen
  have hsame : c = c' := A.nonce_unique hopen hopen'
  rw [hcounter, Option.some.injEq] at hc
  rw [hcounter', Option.some.injEq] at hc'
  subst hc hc' hsame
  grind

end Session

structure Sent where
  payload : Payload
  counter : UInt64
  bytes : Bytes
  deriving DecidableEq, Repr

namespace Session

variable {Key : Type} (A : Aead Key)

def emit (session : Session Key) (payload : Payload) : Session Key × List Sent :=
  match session.encode A payload with
  | (session, .ok (counter, bytes)) => (session, [⟨payload, counter, bytes⟩])
  | (session, .error _) => (session, [])

def emitAll (session : Session Key) : List Payload → Session Key × List Sent
  | [] => (session, [])
  | payload :: rest =>
      let (session, packets) := session.emit A payload
      let (session, more) := emitAll session rest
      (session, packets ++ more)

def sent (session : Session Key) (payloads : List Payload) : List Sent :=
  (session.emitAll A payloads).2

theorem emit_cases (session : Session Key) (payload : Payload) :
    (session.CanWrite payload.plaintext ∧ session.emit A payload =
      (session.advance, [⟨payload, session.sendingCounter,
        packetBytes A payload.codec.packetType session.sessionId session.transport.sendKey
          session.sendingCounter payload.plaintext⟩])) ∨
    session.emit A payload = (session, []) := by
  unfold emit
  rw [encode_eq]
  rcases session.encodeWith_cases A payload.codec.packetType payload.plaintext with
    ⟨hwrite, hencode⟩ | ⟨-, e, hencode⟩
  · left
    refine ⟨hwrite, ?_⟩
    rw [hencode]
  · right
    rw [hencode]

variable {session : Session Key} {packet : Sent} {view : PacketView}

theorem emit_of_canWrite {payload : Payload} (h : session.CanWrite payload.plaintext) :
    session.emit A payload = (session.advance, [⟨payload, session.sendingCounter,
      packetBytes A payload.codec.packetType session.sessionId session.transport.sendKey
        session.sendingCounter payload.plaintext⟩]) := by
  unfold emit
  rw [encode_eq]
  rcases session.encodeWith_cases A payload.codec.packetType payload.plaintext with
    ⟨-, hencode⟩ | ⟨hcannot, -⟩
  · rw [hencode]
  · exact absurd h hcannot

theorem sent_cons (session : Session Key) (payload : Payload) (rest : List Payload) :
    session.sent A (payload :: rest) =
      (session.emit A payload).2 ++ (session.emit A payload).1.sent A rest := rfl

/-- A packet as a session with this identifier and key produces it. -/
structure Produced (sessionId : SessionId) (key : Key) (packet : Sent) : Prop where
  bytes_eq : packet.bytes = packetBytes A packet.payload.codec.packetType sessionId key
    packet.counter packet.payload.plaintext
  fits : packet.payload.plaintext.length + aeadTagLen ≤ maxPacketLen
  usable : packet.counter ≠ maxNonce

theorem lt_succ_of_usable {counter : UInt64} (h : counter ≠ maxNonce) :
    counter < counter + 1 := by
  have hne : counter.toNat ≠ 2 ^ 64 - 1 := fun heq => h (UInt64.toNat_inj.1 heq)
  have hbound := counter.toNat_lt
  rw [UInt64.lt_iff_toNat_lt, UInt64.toNat_add]
  simp
  omega

theorem mem_sent {payloads : List Payload} (h : packet ∈ session.sent A payloads) :
    Produced A session.sessionId session.transport.sendKey packet ∧
      session.sendingCounter ≤ packet.counter := by
  induction payloads generalizing session with
  | nil => simp [sent, emitAll] at h
  | cons payload rest ih =>
      rw [sent_cons] at h
      rcases session.emit_cases A payload with ⟨hwrite, hemit⟩ | hemit
      · rw [hemit, List.singleton_append] at h
        rcases List.mem_cons.1 h with rfl | h
        · exact ⟨⟨rfl, hwrite.1, hwrite.2⟩, UInt64.le_refl _⟩
        · obtain ⟨hproduced, hle⟩ := ih h
          have hlt := lt_succ_of_usable hwrite.2
          refine ⟨hproduced, ?_⟩
          have hadvance : session.advance.sendingCounter = session.sendingCounter + 1 := rfl
          grind
      · rw [hemit] at h
        exact ih h

theorem sent_pairwise (session : Session Key) (payloads : List Payload) :
    (session.sent A payloads).Pairwise (fun earlier later =>
      earlier.counter < later.counter) := by
  induction payloads generalizing session with
  | nil => exact List.Pairwise.nil
  | cons payload rest ih =>
      rw [sent_cons]
      rcases session.emit_cases A payload with ⟨hwrite, hemit⟩ | hemit
      · rw [hemit, List.singleton_append]
        refine List.Pairwise.cons ?_ (ih _)
        intro packet hpacket
        have hle : session.sendingCounter + 1 ≤ packet.counter := (mem_sent A hpacket).2
        have hlt := lt_succ_of_usable hwrite.2
        grind
      · rw [hemit]
        exact ih _

theorem Produced.parse_eq {sessionId : SessionId} {key : Key}
    (h : Produced A sessionId key packet) :
    parse packet.bytes = .ok ⟨packet.payload.codec.packetType, sessionId,
      some packet.counter, A.encrypt key packet.counter packet.payload.plaintext⟩ := by
  rw [h.bytes_eq]
  exact parse_packetBytes A (Codec.hasCounter_packetType _) _ _ _ _

theorem decodeWith_fresh {α : Type} (read : UInt64 → Bytes → Except Error α)
    (h : Produced A session.sessionId session.transport.recvKey packet)
    (hfresh : session.Fresh packet.counter) (hparse : parse packet.bytes = .ok view) :
    session.decodeWith A packet.payload.codec.packetType read view =
      (session.accept packet.counter, read packet.counter packet.payload.plaintext) := by
  rw [h.parse_eq, Except.ok.injEq] at hparse
  subst hparse
  have hfits := h.fits
  have hopens : session.Opens A packet.payload.codec.packetType
      ⟨packet.payload.codec.packetType, session.sessionId, some packet.counter,
        A.encrypt session.transport.recvKey packet.counter packet.payload.plaintext⟩
      packet.counter packet.payload.plaintext := by
    refine ⟨rfl, rfl, rfl, hfresh, ?_, h.usable, by simp⟩
    rw [A.length_encrypt]
    omega
  unfold decodeWith
  rcases session.decodePacket_cases A packet.payload.codec.packetType _ with
    ⟨counter, plaintext, hopens', hdecode⟩ | ⟨hclosed, -⟩
  · obtain ⟨rfl, rfl⟩ := Opens.unique A hopens' hopens
    rw [hdecode]
    rfl
  · exact absurd hopens (hclosed _ _)

theorem decodeWith_stale {α : Type} (expected : PacketType) (read : UInt64 → Bytes → Except Error α)
    (h : Produced A session.sessionId session.transport.recvKey packet)
    (hstale : ¬ session.Fresh packet.counter) (hparse : parse packet.bytes = .ok view) :
    ∃ nonce e, session.decodeWith A expected read view = (session.retune nonce, .error e) := by
  rw [h.parse_eq, Except.ok.injEq] at hparse
  unfold decodeWith
  rcases session.decodePacket_cases A expected view with
    ⟨counter, plaintext, hopens, -⟩ | ⟨-, nonce, e, hdecode⟩
  · have hcounter := hopens.hasCounter
    rw [← hparse, Option.some.injEq] at hcounter
    exact absurd (hcounter ▸ hopens.fresh) hstale
  · refine ⟨nonce, e, ?_⟩
    rw [hdecode]

/-! ## Delivery over a hostile link -/

structure Arrival where
  inbound : Inbound
  expected : Option Decoded
  deriving DecidableEq, Repr

/--
The ways the packets in `pending` can arrive in order at a receiver that was
already handed those in `seen`: some are lost, and repeats of delivered packets
and packets that do not open under `key` come in between, at any decoder.
-/
inductive Interleaving (key : Key) : List Sent → List Sent → List Arrival → Prop
  | nil {seen pending : List Sent} : Interleaving key seen pending []
  | lost {seen pending : List Sent} {arrivals : List Arrival} (packet : Sent) :
      Interleaving key seen pending arrivals →
      Interleaving key seen (packet :: pending) arrivals
  | delivered {seen pending : List Sent} {arrivals : List Arrival} {packet : Sent}
      {view : PacketView} :
      parse packet.bytes = .ok view →
      Interleaving key (packet :: seen) pending arrivals →
      Interleaving key seen (packet :: pending)
        (⟨⟨packet.payload.codec, view⟩,
          some (packet.payload.decoded packet.counter)⟩ :: arrivals)
  | repeated {seen pending : List Sent} {arrivals : List Arrival} {packet : Sent}
      {view : PacketView} (codec : Codec) :
      packet ∈ seen → parse packet.bytes = .ok view →
      Interleaving key seen pending arrivals →
      Interleaving key seen pending (⟨⟨codec, view⟩, none⟩ :: arrivals)
  | forged {seen pending : List Sent} {arrivals : List Arrival} (codec : Codec)
      {view : PacketView} :
      (∀ counter, view.counter = some counter → A.decrypt key counter view.body = none) →
      Interleaving key seen pending arrivals →
      Interleaving key seen pending (⟨⟨codec, view⟩, none⟩ :: arrivals)

def Meets (arrival : Arrival) (verdict : Except Error Decoded) : Prop :=
  match arrival.expected with
  | some value => verdict = .ok value
  | none => ∃ e, verdict = .error e

/-- The receiver holds the sender's key and has accepted nothing still to be sent. -/
structure Paired (sender receiver : Session Key) : Prop where
  key_eq : receiver.transport.recvKey = sender.transport.sendKey
  sessionId_eq : receiver.sessionId = sender.sessionId
  fresh : receiver.Fresh sender.sendingCounter

theorem decode_produced (h : Produced A session.sessionId session.transport.recvKey packet)
    (hfresh : session.Fresh packet.counter) (hparse : parse packet.bytes = .ok view) :
    session.decode A packet.payload.codec view =
      (session.accept packet.counter, .ok (packet.payload.decoded packet.counter)) := by
  rw [decode_eq, decodeWith_fresh A _ h hfresh hparse,
    packet.payload.read_plaintext packet.counter h.fits]

private theorem verdicts_interleaving {key : Key} {seen pending : List Sent}
    {arrivals : List Arrival} (h : Interleaving A key seen pending arrivals) :
    ∀ receiver : Session Key, receiver.transport.recvKey = key →
      (∀ packet ∈ pending, Produced A receiver.sessionId key packet ∧
        receiver.Fresh packet.counter) →
      pending.Pairwise (fun earlier later => earlier.counter < later.counter) →
      (∀ packet ∈ seen, Produced A receiver.sessionId key packet ∧
        ¬ receiver.Fresh packet.counter) →
      List.Forall₂ Meets arrivals (receiver.verdicts A (arrivals.map Arrival.inbound)) := by
  induction h with
  | nil => exact fun _ _ _ _ _ => List.Forall₂.nil
  | lost packet _ ih =>
      intro receiver hkey hpending hsorted hseen
      exact ih receiver hkey (fun p hp => hpending p (List.mem_cons_of_mem _ hp))
        (List.pairwise_cons.1 hsorted).2 hseen
  | @delivered seen pending arrivals packet view hparse _ ih =>
      intro receiver hkey hpending hsorted hseen
      obtain ⟨hproduced, hfresh⟩ := hpending packet List.mem_cons_self
      obtain ⟨habove, hsorted⟩ := List.pairwise_cons.1 hsorted
      subst hkey
      have hdecode := decode_produced A hproduced hfresh hparse
      have hreceive : receiver.receive A ⟨packet.payload.codec, view⟩ =
          receiver.accept packet.counter := by
        rw [receive, hdecode]
      refine List.Forall₂.cons ?_ ?_
      · simp only [Meets, hdecode]
      · rw [hreceive]
        refine ih (receiver.accept packet.counter) rfl ?_ hsorted ?_
        · intro p hp
          refine ⟨(hpending p (List.mem_cons_of_mem _ hp)).1, ?_⟩
          rintro last ⟨⟩
          exact habove p hp
        · intro p hp
          rcases List.mem_cons.1 hp with rfl | hp
          · refine ⟨hproduced, fun hagain => ?_⟩
            have := hagain p.counter rfl
            grind
          · obtain ⟨hproduced', hstale⟩ := hseen p hp
            exact ⟨hproduced', fun hagain => hstale (Fresh.of_accept hfresh hagain).2⟩
  | @repeated seen pending arrivals packet view codec hmem hparse _ ih =>
      intro receiver hkey hpending hsorted hseen
      obtain ⟨hproduced, hstale⟩ := hseen packet hmem
      subst hkey
      obtain ⟨nonce, e, hdecode⟩ :=
        decodeWith_stale A codec.packetType codec.read hproduced hstale hparse
      rw [← decode_eq] at hdecode
      refine List.Forall₂.cons ⟨e, by rw [hdecode]⟩ ?_
      rw [receive, hdecode]
      exact ih (receiver.retune nonce) rfl hpending hsorted hseen
  | @forged seen pending arrivals codec view hfail _ ih =>
      intro receiver hkey hpending hsorted hseen
      rcases receiver.decode_cases A codec view with
        ⟨counter, plaintext, hopens, -⟩ | ⟨-, nonce, e, hdecode⟩
      · have hopen := hopens.opens
        rw [hkey, hfail counter hopens.hasCounter] at hopen
        simp at hopen
      refine List.Forall₂.cons ⟨e, by rw [hdecode]⟩ ?_
      rw [receive, hdecode]
      exact ih (receiver.retune nonce) hkey hpending hsorted hseen

theorem verdicts_of_paired {sender receiver : Session Key} (h : Paired sender receiver)
    (payloads : List Payload) (arrivals : List Arrival)
    (hlink : Interleaving A receiver.transport.recvKey [] (sender.sent A payloads) arrivals) :
    List.Forall₂ Meets arrivals (receiver.verdicts A (arrivals.map Arrival.inbound)) := by
  refine verdicts_interleaving A hlink receiver rfl ?_ (sent_pairwise A sender payloads)
    (by simp)
  intro packet hpacket
  obtain ⟨hproduced, hle⟩ := mem_sent A hpacket
  refine ⟨?_, fun last hlast => ?_⟩
  · rw [h.sessionId_eq, h.key_eq]
    exact hproduced
  · have := h.fresh last hlast
    grind

/--
Across all decoders accepted counters strictly increase and no ciphertext is
accepted twice; a rejected packet changes nothing that later verdicts depend
on; and packets of the peer that arrive in order are accepted with the encoded
values, whatever is repeated or forged in between.
-/
theorem replay_protection_and_transparency :
    (∀ (session : Session Key) (inbounds : List Inbound),
      (session.passed A inbounds).Pairwise CounterLt ∧
      ((session.passed A inbounds).map PacketView.body).Nodup) ∧
    (∀ (session : Session Key) (inbound : Inbound) (later : List Inbound),
      session.passes A inbound = false →
      (session.receive A inbound).lastSeenCounter = session.lastSeenCounter ∧
      (session.receive A inbound).verdicts A later = session.verdicts A later) ∧
    (∀ (sender receiver : Session Key) (payloads : List Payload) (arrivals : List Arrival),
      Paired sender receiver →
      (∀ packet ∈ sender.sent A payloads, ∃ view, parse packet.bytes = .ok view) ∧
      (Interleaving A receiver.transport.recvKey [] (sender.sent A payloads) arrivals →
        List.Forall₂ Meets arrivals
          (receiver.verdicts A (arrivals.map Arrival.inbound)))) := by
  refine ⟨fun session inbounds => ?_, fun session inbound later hfail => ?_,
    fun sender receiver payloads arrivals hpaired => ⟨?_, ?_⟩⟩
  · exact ⟨passed_pairwise A session inbounds, passed_bodies_nodup A session inbounds⟩
  · rcases session.receive_cases A inbound with ⟨_, _, _, hpass, _⟩ | ⟨-, nonce, hreceive⟩
    · rw [hfail] at hpass
      simp at hpass
    · rw [hreceive]
      exact ⟨rfl, verdicts_retune A session nonce later⟩
  · intro packet hpacket
    exact ⟨_, (mem_sent A hpacket).1.parse_eq⟩
  · exact verdicts_of_paired A hpaired payloads arrivals

/-! A small session pair on which runs are evaluated. -/

def toyId : SessionId := ⟨[1, 2, 3, 4], rfl⟩

def toySender : Session UInt64 := ⟨⟨7, 9, 0, 0⟩, toyId, none⟩

def toyReceiver : Session UInt64 := ⟨⟨9, 7, 0, 0⟩, toyId, none⟩

theorem paired_toy : Paired toySender toyReceiver :=
  ⟨rfl, rfl, fun _ h => by cases h⟩

private def toyPacket (codec : Codec) (counter : UInt64) (plaintext : Bytes) : Inbound :=
  ⟨codec, codec.packetType, toyId, some counter,
    Aead.transparent.encrypt 7 counter plaintext⟩

private def toyForgery : Inbound := ⟨.control, .control, toyId, some 5, [0, 0]⟩

private def toyArrivals : List Arrival :=
  [⟨toyForgery, none⟩,
    ⟨toyPacket .heartbeat 0 (encodeHeartbeatPlaintext 11 1), some (.heartbeat ⟨0, 11, 1⟩)⟩,
    ⟨toyPacket .heartbeat 0 (encodeHeartbeatPlaintext 11 1), none⟩,
    ⟨toyPacket .rekey 2 [], some (.rekey 2)⟩]

theorem replay_protection_and_transparency_toy :
    (toyReceiver.receive Aead.transparent toyForgery).lastSeenCounter = none ∧
    List.Forall₂ Meets toyArrivals
      (toyReceiver.verdicts Aead.transparent (toyArrivals.map Arrival.inbound)) := by
  have hsent : toySender.sent Aead.transparent [.heartbeat 11 1, .heartbeatAck 3 4, .rekey] =
      [⟨.heartbeat 11 1, 0, packetBytes Aead.transparent .heartbeat toyId 7 0
          (encodeHeartbeatPlaintext 11 1)⟩,
        ⟨.heartbeatAck 3 4, 1, packetBytes Aead.transparent .heartbeatAck toyId 7 1
          (encodeHeartbeatAckPlaintext 3 4)⟩,
        ⟨.rekey, 2, packetBytes Aead.transparent .rekey toyId 7 2 []⟩] := by
    decide
  have hlink : Interleaving Aead.transparent toyReceiver.transport.recvKey []
      (toySender.sent Aead.transparent [.heartbeat 11 1, .heartbeatAck 3 4, .rekey])
      toyArrivals := by
    rw [hsent]
    refine .forged .control (fun counter hcounter => ?_) (.delivered (by rfl)
      (.repeated .heartbeat (List.mem_singleton.2 rfl) (by rfl)
        (.lost _ (.delivered (by rfl) .nil))))
    cases hcounter
    decide
  obtain ⟨-, hreject, hdeliver⟩ := replay_protection_and_transparency Aead.transparent
  refine ⟨(hreject toyReceiver toyForgery [] (by decide)).1, ?_⟩
  exact (hdeliver toySender toyReceiver _ toyArrivals paired_toy).2 hlink

end Session

end Yggdrasil.Ratatoskr
