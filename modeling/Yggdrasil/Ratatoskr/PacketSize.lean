import Yggdrasil.Ratatoskr.TypeConfusion

/-!
# Packets and receive buffers

The encode buffer of `MAX_PACKET_LEN` bytes holds the ciphertext alone; the
preamble and the counter are written in front of it.  A plaintext may so exceed
`MAX_CONTROL_PLAINTEXT_LEN` by their length, and its packet then exceeds the
buffer that it is received into.
-/

namespace Yggdrasil.Ratatoskr

open Foundation

def received (packet : Bytes) : Bytes := packet.take maxPacketLen

theorem length_encodeEnvelope_of_decode {bytes rest : Bytes} {envelope : ControlEnvelope}
    (h : decodeEnvelope bytes = some (envelope, rest)) :
    (encodeEnvelope envelope).length + rest.length ≤ bytes.length := by
  simp only [decodeEnvelope, Option.bind_eq_bind, Option.bind_eq_some_iff, Option.some.injEq,
    Prod.mk.injEq] at h
  obtain ⟨⟨seq, afterSeq⟩, hseq, ⟨bodyType, afterType⟩, htype, ⟨body, rest'⟩, hbody, rfl, rfl⟩ := h
  have hseqLen := Postcard.length_encodeU32_of_decode hseq
  have hbodyLen := Postcard.length_encodeVec_of_decode hbody
  cases afterSeq with
  | nil => cases htype
  | cons byte tail =>
      cases htype
      simp only [encodeEnvelope, List.length_append, List.length_cons] at hseqLen hbodyLen ⊢
      omega

theorem length_encodeEnvelope_of_read {counter : UInt64} {plaintext : Bytes}
    {envelope : ControlEnvelope}
    (h : Codec.control.read counter plaintext = .ok (.control envelope)) :
    (encodeEnvelope envelope).length ≤ plaintext.length := by
  simp only [Codec.read, Session.readControl, Postcard.fromBytes] at h
  cases hread : decodeEnvelope plaintext with
  | none => simp [hread, Except.map] at h
  | some result =>
      obtain ⟨found, rest⟩ := result
      have hlength := length_encodeEnvelope_of_decode hread
      simp only [hread, Option.map_some, Except.map, Except.ok.injEq, Decoded.control.injEq] at h
      subst h
      omega

namespace Payload

theorem length_plaintext_le {payload : Payload}
    (hpayload : ∀ envelope, payload ≠ .control envelope) :
    payload.plaintext.length ≤ heartbeatAckPtLen := by
  cases payload with
  | heartbeat timestampMs flags =>
      rw [plaintext, length_encodeHeartbeatPlaintext]
      decide
  | heartbeatAck echoedCounter serverTsMs =>
      rw [plaintext, length_encodeHeartbeatAckPlaintext]
  | rekey => exact Nat.zero_le _
  | control envelope => exact absurd rfl (hpayload envelope)
  | controlAck ack => exact (length_encodeAck_le ack).trans (by decide)

end Payload

namespace Session

variable {Key : Type} (A : Aead Key)

theorem length_packetBytes (packetType : PacketType) (sessionId : SessionId) (key : Key)
    (counter : UInt64) (plaintext : Bytes) :
    (packetBytes A packetType sessionId key counter plaintext).length =
      preambleLen + counterLen + plaintext.length + aeadTagLen := by
  rw [packetBytes, List.length_append, List.length_append, A.length_encrypt, writePreamble,
    List.length_cons, sessionId.length_eq, writeCounter, length_u64ToBe, preambleLen, counterLen]
  omega

theorem produced_of_encode {sender : Session Key} {payload : Payload} {counter : UInt64}
    {packet : Bytes} (h : (sender.encode A payload).2 = .ok (counter, packet)) :
    counter = sender.sendingCounter ∧
      Produced A sender.sessionId sender.transport.sendKey ⟨payload, counter, packet⟩ := by
  obtain ⟨hwrite, rfl, rfl⟩ := encode_ok A h
  exact ⟨rfl, rfl, hwrite.1, hwrite.2⟩

variable {packet : Sent} {sessionId : SessionId} {key : Key}

theorem Produced.length_bytes (h : Produced A sessionId key packet) :
    packet.bytes.length =
      preambleLen + counterLen + packet.payload.plaintext.length + aeadTagLen := by
  rw [h.bytes_eq, length_packetBytes]

theorem Produced.length_le_iff (h : Produced A sessionId key packet) :
    packet.bytes.length ≤ maxPacketLen ↔
      packet.payload.plaintext.length ≤ maxControlPlaintextLen := by
  rw [h.length_bytes, maxPacketLen]
  omega

theorem Produced.parse_received (h : Produced A sessionId key packet) :
    parse (received packet.bytes) = .ok ⟨packet.payload.codec.packetType, sessionId,
      some packet.counter, (A.encrypt key packet.counter packet.payload.plaintext).take
        (maxPacketLen - (preambleLen + counterLen))⟩ := by
  have hfront : (writePreamble packet.payload.codec.packetType sessionId ++
      writeCounter packet.counter).length = preambleLen + counterLen := by
    rw [List.length_append, writePreamble, List.length_cons, sessionId.length_eq, writeCounter,
      length_u64ToBe]
    rfl
  have hcut : received packet.bytes =
      writePreamble packet.payload.codec.packetType sessionId ++ writeCounter packet.counter ++
        (A.encrypt key packet.counter packet.payload.plaintext).take
          (maxPacketLen - (preambleLen + counterLen)) := by
    rw [received, h.bytes_eq, packetBytes, List.take_append, hfront,
      List.take_of_length_le (by rw [hfront]; decide)]
  rw [hcut]
  exact parse_counter_packet (Codec.hasCounter_packetType _) _ _ _

theorem not_decode_of_cut {receiver : Session Key} {view : PacketView}
    (h : Produced A sessionId key packet) (hlong : maxPacketLen < packet.bytes.length)
    (hparse : parse (received packet.bytes) = .ok view) :
    (receiver.decode A packet.payload.codec view).2 ≠
      .ok (packet.payload.decoded packet.counter) := by
  intro hdecode
  have htooLong : maxControlPlaintextLen < packet.payload.plaintext.length := by
    have hiff := h.length_le_iff
    omega
  cases h.parse_received.symm.trans hparse
  rcases receiver.decode_cases A packet.payload.codec _ with
    ⟨counter, plaintext, hopens, hread⟩ | ⟨-, nonce, e, hread⟩
  swap
  · rw [hread] at hdecode
    cases hdecode
  rw [hread] at hdecode
  have hbody : plaintext.length + aeadTagLen ≤ maxPacketLen - (preambleLen + counterLen) := by
    rw [← A.length_encrypt receiver.transport.recvKey counter,
      ← A.eq_encrypt_of_decrypt hopens.opens]
    exact List.length_take_le _ _
  -- only a control envelope can be so long
  cases hpayload : packet.payload with
  | control envelope =>
      rw [hpayload] at hdecode htooLong
      have hlength : (encodeEnvelope envelope).length ≤ plaintext.length :=
        length_encodeEnvelope_of_read hdecode
      have hmax : maxPacketLen - (preambleLen + counterLen) =
          maxControlPlaintextLen + aeadTagLen := by decide
      simp only [Payload.plaintext] at htooLong
      omega
  | _ =>
      have hshort : packet.payload.plaintext.length ≤ heartbeatAckPtLen :=
        Payload.length_plaintext_le (fun envelope heq => by rw [hpayload] at heq; cases heq)
      have hbound : heartbeatAckPtLen ≤ maxControlPlaintextLen := by decide
      omega

theorem decode_received_iff {sender receiver : Session Key} (hpaired : Paired sender receiver)
    (h : Produced A sender.sessionId sender.transport.sendKey packet)
    (hcounter : packet.counter = sender.sendingCounter) :
    (∃ view, parse (received packet.bytes) = .ok view ∧
        (receiver.decode A packet.payload.codec view).2 =
          .ok (packet.payload.decoded packet.counter)) ↔
      packet.bytes.length ≤ maxPacketLen := by
  constructor
  · rintro ⟨view, hparse, hdecode⟩
    by_contra hlong
    exact not_decode_of_cut A h (Nat.lt_of_not_le hlong) hparse hdecode
  · intro hfits
    have hwhole : received packet.bytes = packet.bytes := List.take_of_length_le hfits
    rw [← hpaired.key_eq, ← hpaired.sessionId_eq] at h
    refine ⟨_, hwhole ▸ h.parse_eq, ?_⟩
    rw [decode_produced A h (hcounter ▸ hpaired.fresh) h.parse_eq]

/--
A packet fits the receive buffer, and so is decoded to the value it was made
of, exactly when the plaintext is within its bound.  Everything but a control
envelope is; an envelope may exceed it by the length of preamble and counter.
-/
theorem packet_fits_iff_decoded (sender : Session Key) (payload : Payload) (counter : UInt64)
    (packet : Bytes) (h : (sender.encode A payload).2 = .ok (counter, packet)) :
    packet.length ≤ maxPacketLen + (preambleLen + counterLen) ∧
      (packet.length ≤ maxPacketLen ↔ payload.plaintext.length ≤ maxControlPlaintextLen) ∧
      ((∀ envelope, payload ≠ .control envelope) → packet.length ≤ maxPacketLen) ∧
      ∀ receiver, Paired sender receiver →
        ((∃ view, parse (received packet) = .ok view ∧
            (receiver.decode A payload.codec view).2 = .ok (payload.decoded counter)) ↔
          packet.length ≤ maxPacketLen) := by
  obtain ⟨hcounter, hproduced⟩ := produced_of_encode A h
  have hlength := hproduced.length_bytes
  have hfits := hproduced.fits
  refine ⟨?_, hproduced.length_le_iff, fun hother => ?_, fun receiver hpaired => ?_⟩
  · dsimp only at hlength hfits
    omega
  · have hshort := Payload.length_plaintext_le hother
    have hbound : heartbeatAckPtLen ≤ maxControlPlaintextLen := by decide
    exact hproduced.length_le_iff.2 (hshort.trans hbound)
  · exact decode_received_iff A hpaired hproduced hcounter

def largeEnvelope : ControlEnvelope := ⟨0, 1, List.replicate 17410 0⟩

theorem length_encodeEnvelope (seq : UInt32) (bodyType : UInt8) (body : Bytes) :
    (encodeEnvelope ⟨seq, bodyType, body⟩).length =
      (Postcard.encodeU32 seq).length +
        ((Postcard.encodeLen body.length).length + body.length + 1) := by
  rw [encodeEnvelope, Postcard.encodeVec, List.length_append, List.length_cons, List.length_append]

theorem length_encodeEnvelope_large : (encodeEnvelope largeEnvelope).length = 17415 := by
  have hseq : (Postcard.encodeU32 0).length = 1 := by decide
  have hlen : (Postcard.encodeLen 17410).length = 3 := by decide
  rw [largeEnvelope, length_encodeEnvelope, List.length_replicate, hseq, hlen]

theorem large_envelope_cut :
    ∃ packet, (toySender.encode Aead.transparent (.control largeEnvelope)).2 = .ok (0, packet) ∧
      maxControlPlaintextLen < (encodeEnvelope largeEnvelope).length ∧
      maxPacketLen < packet.length ∧
      ∀ view, parse (received packet) = .ok view →
        (toyReceiver.decode Aead.transparent .control view).2 ≠ .ok (.control largeEnvelope) := by
  have hlength := length_encodeEnvelope_large
  have hwrite : toySender.CanWrite (encodeEnvelope largeEnvelope) := by
    rw [CanWrite, hlength]
    decide
  have hencode : (toySender.encode Aead.transparent (.control largeEnvelope)).2 =
      .ok (0, packetBytes Aead.transparent .control toyId 7 0 (encodeEnvelope largeEnvelope)) := by
    rcases toySender.encodeWith_cases Aead.transparent .control (encodeEnvelope largeEnvelope) with
      ⟨-, hencode⟩ | ⟨hcannot, -⟩
    · rw [encode_eq]
      exact congrArg Prod.snd hencode
    · exact absurd hwrite hcannot
  obtain ⟨-, hproduced⟩ := produced_of_encode Aead.transparent hencode
  have hlong : maxPacketLen < (packetBytes Aead.transparent .control toyId (7 : UInt64) 0
      (encodeEnvelope largeEnvelope)).length := by
    rw [length_packetBytes, hlength]
    decide
  refine ⟨_, hencode, by rw [hlength]; decide, hlong, fun view hparse => ?_⟩
  exact not_decode_of_cut Aead.transparent hproduced hlong hparse

theorem small_envelope_decoded :
    ∃ packet, (toySender.encode Aead.transparent (.control ⟨3, 1, [7]⟩)).2 = .ok (0, packet) ∧
      ∃ view, parse (received packet) = .ok view ∧
        (toyReceiver.decode Aead.transparent .control view).2 = .ok (.control ⟨3, 1, [7]⟩) := by
  obtain ⟨packet, hencode⟩ : ∃ packet,
      (toySender.encode Aead.transparent (.control ⟨3, 1, [7]⟩)).2 = .ok (0, packet) := ⟨_, rfl⟩
  obtain ⟨-, hfits, -, hdecoded⟩ :=
    packet_fits_iff_decoded Aead.transparent toySender (.control ⟨3, 1, [7]⟩) 0 packet hencode
  exact ⟨packet, hencode, (hdecoded toyReceiver paired_toy).2 (hfits.2 (by decide))⟩

end Session

end Yggdrasil.Ratatoskr
