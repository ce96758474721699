import Yggdrasil.Ratatoskr.ControlFrame

/-!
# Established Noise sessions

`TransportState` models the transport half of `snow` over an ideal AEAD: one
key and one nonce per direction, the sending nonce advancing with every
successful write.  `Session` adds the session identifier and the
strict-monotonic counter check shared by all five packet codecs.
-/

namespace Yggdrasil.Ratatoskr

open Foundation

/-- The nonce `snow` refuses to use. -/
def maxNonce : UInt64 := 0xffffffffffffffff

def maxMsgLen : Nat := 65535

structure TransportState (Key : Type) where
  sendKey : Key
  recvKey : Key
  sendingNonce : UInt64
  receivingNonce : UInt64
  deriving DecidableEq, Repr

namespace TransportState

variable {Key : Type} (A : Aead Key)

def writeMessage (transport : TransportState Key) (payload : Bytes) (bufLen : Nat) :
    TransportState Key × Except SnowError Bytes :=
  if maxMsgLen < payload.length + aeadTagLen ∨ bufLen < payload.length + aeadTagLen then
    (transport, .error .input)
  else if transport.sendingNonce = maxNonce then
    (transport, .error .exhausted)
  else
    ({ transport with sendingNonce := transport.sendingNonce + 1 },
      .ok (A.encrypt transport.sendKey transport.sendingNonce payload))

def setReceivingNonce (transport : TransportState Key) (nonce : UInt64) :
    TransportState Key :=
  { transport with receivingNonce := nonce }

def readMessage (transport : TransportState Key) (message : Bytes) (bufLen : Nat) :
    TransportState Key × Except SnowError Bytes :=
  if maxMsgLen < message.length then
    (transport, .error .input)
  else if message.length < aeadTagLen ∨ bufLen < message.length - aeadTagLen then
    (transport, .error .decrypt)
  else if transport.receivingNonce = maxNonce then
    (transport, .error .exhausted)
  else
    match A.decrypt transport.recvKey transport.receivingNonce message with
    | none => (transport, .error .decrypt)
    | some payload =>
        ({ transport with receivingNonce := transport.receivingNonce + 1 }, .ok payload)

end TransportState

structure Session (Key : Type) where
  transport : TransportState Key
  sessionId : SessionId
  lastSeenCounter : Option UInt64
  deriving DecidableEq, Repr

structure DecodedHeartbeat where
  counter : UInt64
  timestampMs : UInt64
  flags : UInt8
  deriving DecidableEq, Repr

structure DecodedHeartbeatAck where
  counter : UInt64
  echoedCounter : UInt64
  serverTsMs : UInt64
  deriving DecidableEq, Repr

namespace Session

variable {Key : Type} (A : Aead Key)

def sendingCounter (session : Session Key) : UInt64 := session.transport.sendingNonce

def encodePacket (session : Session Key) (packetType : PacketType) (counter : UInt64)
    (plaintext : Bytes) : Session Key × Except Error Bytes :=
  match session.transport.writeMessage A plaintext maxPacketLen with
  | (transport, .error e) => ({ session with transport }, .error (.noise e))
  | (transport, .ok ciphertext) =>
      ({ session with transport },
        .ok (writePreamble packetType session.sessionId ++ writeCounter counter ++
          ciphertext))

def encodeWith (packetType : PacketType) (plaintext : Bytes) (session : Session Key) :
    Session Key × Except Error (UInt64 × Bytes) :=
  let counter := session.sendingCounter
  match session.encodePacket A packetType counter plaintext with
  | (session, .error e) => (session, .error e)
  | (session, .ok packet) => (session, .ok (counter, packet))

def encodeHeartbeat (session : Session Key) (timestampMs : UInt64) (flags : UInt8) :
    Session Key × Except Error (UInt64 × Bytes) :=
  session.encodeWith A .heartbeat (encodeHeartbeatPlaintext timestampMs flags)

def encodeHeartbeatAck (session : Session Key) (echoedCounter serverTsMs : UInt64) :
    Session Key × Except Error (UInt64 × Bytes) :=
  session.encodeWith A .heartbeatAck (encodeHeartbeatAckPlaintext echoedCounter serverTsMs)

def encodeRekey (session : Session Key) : Session Key × Except Error (UInt64 × Bytes) :=
  session.encodeWith A .rekey []

def encodeControl (session : Session Key) (envelope : ControlEnvelope) :
    Session Key × Except Error (UInt64 × Bytes) :=
  session.encodeWith A .control (encodeEnvelope envelope)

def encodeControlAck (session : Session Key) (ack : ControlAck) :
    Session Key × Except Error (UInt64 × Bytes) :=
  session.encodeWith A .controlAck (encodeAck ack)

def decodePacket (session : Session Key) (expected : PacketType) (view : PacketView) :
    Session Key × Except Error Bytes :=
  if view.packetType ≠ expected then
    (session, .error (.auth "unexpected packet type"))
  else if view.sessionId ≠ session.sessionId then
    (session, .error (.auth "session id mismatch"))
  else
    match view.counter with
    | none => (session, .error (.malformedPacket "post-handshake packet missing counter"))
    | some counter =>
        let decrypt : Session Key × Except Error Bytes :=
          let transport := session.transport.setReceivingNonce counter
          match transport.readMessage A view.body maxPacketLen with
          | (transport, .error e) => ({ session with transport }, .error (.noise e))
          | (transport, .ok plaintext) =>
              ({ session with transport, lastSeenCounter := some counter }, .ok plaintext)
        match session.lastSeenCounter with
        | some last =>
            if counter ≤ last then (session, .error (.replay counter last)) else decrypt
        | none => decrypt

def decodeWith {α : Type} (expected : PacketType) (read : UInt64 → Bytes → Except Error α)
    (session : Session Key) (view : PacketView) : Session Key × Except Error α :=
  match session.decodePacket A expected view with
  | (session, .error e) => (session, .error e)
  | (session, .ok plaintext) => (session, read (view.counter.getD 0) plaintext)

def readHeartbeat (counter : UInt64) (plaintext : Bytes) : Except Error DecodedHeartbeat := do
  let (timestampMs, flags) ← decodeHeartbeatPlaintext plaintext
  .ok ⟨counter, timestampMs, flags⟩

def decodeHeartbeat (session : Session Key) (view : PacketView) :
    Session Key × Except Error DecodedHeartbeat :=
  session.decodeWith A .heartbeat readHeartbeat view

def readHeartbeatAck (counter : UInt64) (plaintext : Bytes) :
    Except Error DecodedHeartbeatAck := do
  let (echoedCounter, serverTsMs) ← decodeHeartbeatAckPlaintext plaintext
  .ok ⟨counter, echoedCounter, serverTsMs⟩

def decodeHeartbeatAck (session : Session Key) (view : PacketView) :
    Session Key × Except Error DecodedHeartbeatAck :=
  session.decodeWith A .heartbeatAck readHeartbeatAck view

def readRekey (counter : UInt64) (plaintext : Bytes) : Except Error UInt64 :=
  if plaintext ≠ [] then .error (.malformedPacket "rekey payload must be empty")
  else .ok counter

def decodeRekey (session : Session Key) (view : PacketView) :
    Session Key × Except Error UInt64 :=
  session.decodeWith A .rekey readRekey view

def readControl (_ : UInt64) (plaintext : Bytes) : Except Error ControlEnvelope :=
  match Postcard.fromBytes decodeEnvelope plaintext with
  | none => .error .postcard
  | some envelope => .ok envelope

def decodeControl (session : Session Key) (view : PacketView) :
    Session Key × Except Error ControlEnvelope :=
  session.decodeWith A .control readControl view

def readControlAck (_ : UInt64) (plaintext : Bytes) : Except Error ControlAck :=
  match Postcard.fromBytes decodeAck plaintext with
  | none => .error .postcard
  | some ack => .ok ack

def decodeControlAck (session : Session Key) (view : PacketView) :
    Session Key × Except Error ControlAck :=
  session.decodeWith A .controlAck readControlAck view

def packetBytes (packetType : PacketType) (sessionId : SessionId) (key : Key)
    (counter : UInt64) (plaintext : Bytes) : Bytes :=
  writePreamble packetType sessionId ++ writeCounter counter ++
    A.encrypt key counter plaintext

def advance (session : Session Key) : Session Key :=
  { session with
    transport := { session.transport with
      sendingNonce := session.transport.sendingNonce + 1 } }

def CanWrite (session : Session Key) (plaintext : Bytes) : Prop :=
  plaintext.length + aeadTagLen ≤ maxPacketLen ∧ session.sendingCounter ≠ maxNonce

theorem encodeWith_cases (packetType : PacketType) (plaintext : Bytes)
    (session : Session Key) :
    (session.CanWrite plaintext ∧
      session.encodeWith A packetType plaintext =
        (session.advance, .ok (session.sendingCounter,
          packetBytes A packetType session.sessionId session.transport.sendKey
            session.sendingCounter plaintext))) ∨
    (¬ session.CanWrite plaintext ∧
      ∃ e, session.encodeWith A packetType plaintext = (session, .error e)) := by
  have hmax : maxPacketLen ≤ maxMsgLen := by decide
  unfold encodeWith encodePacket TransportState.writeMessage CanWrite sendingCounter
  by_cases hlen : plaintext.length + aeadTagLen ≤ maxPacketLen
  · have hfits : ¬ (maxMsgLen < plaintext.length + aeadTagLen ∨
        maxPacketLen < plaintext.length + aeadTagLen) := by omega
    by_cases hnonce : session.transport.sendingNonce = maxNonce
    · right
      refine ⟨fun h => h.2 hnonce, .noise .exhausted, ?_⟩
      rw [if_neg hfits, if_pos hnonce]
    · left
      refine ⟨⟨hlen, hnonce⟩, ?_⟩
      rw [if_neg hfits, if_neg hnonce]
      rfl
  · right
    refine ⟨fun h => hlen h.1, .noise .input, ?_⟩
    rw [if_pos (by omega)]

theorem parse_packetBytes {packetType : PacketType} (h : packetType.hasCounter = true)
    (sessionId : SessionId) (key : Key) (counter : UInt64) (plaintext : Bytes) :
    parse (packetBytes A packetType sessionId key counter plaintext) =
      .ok ⟨packetType, sessionId, some counter, A.encrypt key counter plaintext⟩ :=
  parse_counter_packet h sessionId counter _

def Fresh (session : Session Key) (counter : UInt64) : Prop :=
  ∀ last, session.lastSeenCounter = some last → last < counter

instance (session : Session Key) (counter : UInt64) : Decidable (session.Fresh counter) :=
  show Decidable (∀ last ∈ session.lastSeenCounter, _) from Option.decidableForallMem _

/-- The packet passes every check up to and including decryption. -/
structure Opens (session : Session Key) (expected : PacketType) (view : PacketView)
    (counter : UInt64) (plaintext : Bytes) : Prop where
  hasType : view.packetType = expected
  hasSession : view.sessionId = session.sessionId
  hasCounter : view.counter = some counter
  fresh : session.Fresh counter
  fits : view.body.length ≤ maxPacketLen + aeadTagLen
  usable : counter ≠ maxNonce
  opens : A.decrypt session.transport.recvKey counter view.body = some plaintext

def accept (session : Session Key) (counter : UInt64) : Session Key :=
  { session with
    transport := { session.transport with receivingNonce := counter + 1 }
    lastSeenCounter := some counter }

def retune (session : Session Key) (nonce : UInt64) : Session Key :=
  { session with transport := session.transport.setReceivingNonce nonce }

theorem Opens.unique {session : Session Key} {expected : PacketType} {view : PacketView}
    {counter counter' : UInt64} {plaintext plaintext' : Bytes}
    (h : session.Opens A expected view counter plaintext)
    (h' : session.Opens A expected view counter' plaintext') :
    counter = counter' ∧ plaintext = plaintext' := by
  have hcounter : counter = counter' := by
    have := h.hasCounter.symm.trans h'.hasCounter
    simpa using this
  subst hcounter
  have hplain := h.opens.symm.trans h'.opens
  exact ⟨rfl, by simpa using hplain⟩

private theorem readMessage_cases (session : Session Key) (counter : UInt64) (body : Bytes) :
    (∃ plaintext, body.length ≤ maxPacketLen + aeadTagLen ∧ counter ≠ maxNonce ∧
      A.decrypt session.transport.recvKey counter body = some plaintext ∧
      (session.transport.setReceivingNonce counter).readMessage A body maxPacketLen =
        ((session.accept counter).transport, .ok plaintext)) ∨
    ((body.length ≤ maxPacketLen + aeadTagLen → counter ≠ maxNonce →
        A.decrypt session.transport.recvKey counter body = none) ∧
      ∃ e, (session.transport.setReceivingNonce counter).readMessage A body maxPacketLen =
        (session.transport.setReceivingNonce counter, .error e)) := by
  have hmax : maxPacketLen + aeadTagLen ≤ maxMsgLen := by decide
  unfold TransportState.readMessage TransportState.setReceivingNonce
  by_cases hfits : body.length ≤ maxPacketLen + aeadTagLen
  · rw [if_neg (by omega)]
    cases hopen : A.decrypt session.transport.recvKey counter body with
    | none =>
        right
        refine ⟨fun _ _ => rfl, ?_⟩
        by_cases hshort : body.length < aeadTagLen ∨ maxPacketLen < body.length - aeadTagLen
        · exact ⟨.decrypt, by rw [if_pos hshort]⟩
        · rw [if_neg hshort]
          by_cases hnonce : counter = maxNonce
          · exact ⟨.exhausted, by rw [if_pos hnonce]⟩
          · exact ⟨.decrypt, by rw [if_neg hnonce]⟩
    | some plaintext =>
        have hlen : body.length = plaintext.length + aeadTagLen := by
          rw [A.eq_encrypt_of_decrypt hopen, A.length_encrypt]
        rw [if_neg (by omega)]
        by_cases hnonce : counter = maxNonce
        · right
          exact ⟨fun _ h => absurd hnonce h, .exhausted, by rw [if_pos hnonce]⟩
        · left
          refine ⟨plaintext, hfits, hnonce, rfl, ?_⟩
          rw [if_neg hnonce]
          rfl
  · right
    refine ⟨fun h => absurd h hfits, ?_⟩
    by_cases hlong : maxMsgLen < body.length
    · exact ⟨.input, by rw [if_pos hlong]⟩
    · rw [if_neg hlong, if_pos (by omega)]
      exact ⟨.decrypt, rfl⟩

/-- Everything a read can do: accept an authentic fresh packet, or reject. -/
theorem decodePacket_cases (session : Session Key) (expected : PacketType)
    (view : PacketView) :
    (∃ counter plaintext, session.Opens A expected view counter plaintext ∧
      session.decodePacket A expected view = (session.accept counter, .ok plaintext)) ∨
    ((∀ counter plaintext, ¬ session.Opens A expected view counter plaintext) ∧
      ∃ nonce e, session.decodePacket A expected view =
        (session.retune nonce, .error e)) := by
  have hsame : session.retune session.transport.receivingNonce = session := rfl
  unfold decodePacket
  by_cases htype : view.packetType = expected
  swap
  · right
    rw [if_pos htype]
    exact ⟨fun _ _ h => htype h.hasType, _, _, by rw [hsame]⟩
  rw [if_neg (not_not.mpr htype)]
  by_cases hsession : view.sessionId = session.sessionId
  swap
  · right
    rw [if_pos hsession]
    exact ⟨fun _ _ h => hsession h.hasSession, _, _, by rw [hsame]⟩
  rw [if_neg (not_not.mpr hsession)]
  cases hcounter : view.counter with
  | none =>
      right
      refine ⟨fun _ _ h => ?_, _, _, by rw [hsame]⟩
      have := hcounter.symm.trans h.hasCounter
      simp at this
  | some counter =>
      have hinj : ∀ {c p}, session.Opens A expected view c p → c = counter := by
        intro c p h
        have := h.hasCounter.symm.trans hcounter
        simpa using this
      by_cases hfresh : session.Fresh counter
      · have hdecrypt := readMessage_cases A session counter view.body
        have hskip : ∀ result : Session Key × Except Error Bytes,
            (match session.lastSeenCounter with
              | some last =>
                  if counter ≤ last then (session, .error (.replay counter last)) else result
              | none => result) = result := by
          intro result
          cases hlast : session.lastSeenCounter with
          | none => rfl
          | some last =>
              have := hfresh last hlast
              exact if_neg (by grind)
        dsimp only
        rw [hskip]
        rcases hdecrypt with ⟨plaintext, hfits, hnonce, hopen, hread⟩ | ⟨hclosed, e, hread⟩
        · left
          refine ⟨counter, plaintext,
            ⟨htype, hsession, hcounter, hfresh, hfits, hnonce, hopen⟩, ?_⟩
          rw [hread]
          rfl
        · right
          refine ⟨fun c p h => ?_, counter, .noise e, ?_⟩
          · obtain rfl := hinj h
            have := (hclosed h.fits h.usable).symm.trans h.opens
            simp at this
          · rw [hread]
            rfl
      · right
        refine ⟨fun c p h => hfresh (hinj h ▸ h.fresh), ?_⟩
        unfold Fresh at hfresh
        push Not at hfresh
        obtain ⟨last, hlast, hle⟩ := hfresh
        refine ⟨session.transport.receivingNonce, .replay counter last, ?_⟩
        dsimp only
        rw [hlast, hsame]
        exact if_pos (by grind)

theorem recvKey_decodeWith {α : Type} (expected : PacketType)
    (read : UInt64 → Bytes → Except Error α) (session : Session Key) (view : PacketView) :
    (session.decodeWith A expected read view).1.transport.recvKey =
      session.transport.recvKey := by
  unfold decodeWith
  rcases session.decodePacket_cases A expected view with
    ⟨counter, plaintext, -, hdecode⟩ | ⟨-, nonce, e, hdecode⟩
  · rw [hdecode]
    rfl
  · rw [hdecode]
    rfl

theorem opens_of_decodeWith {α : Type} {expected : PacketType}
    {read : UInt64 → Bytes → Except Error α} {session : Session Key} {view : PacketView}
    (h : (session.decodeWith A expected read view).2.isOk = true) :
    ∃ counter plaintext, session.Opens A expected view counter plaintext := by
  unfold decodeWith at h
  rcases session.decodePacket_cases A expected view with
    ⟨counter, plaintext, hopens, -⟩ | ⟨-, nonce, e, hdecode⟩
  · exact ⟨counter, plaintext, hopens⟩
  · rw [hdecode] at h
    cases h

end Session

end Yggdrasil.Ratatoskr
