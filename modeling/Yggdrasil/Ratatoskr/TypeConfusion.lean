import Yggdrasil.Ratatoskr.SessionTrace

/-!
# The packet type is not authenticated

The tag of a packet travels outside the AEAD and is not bound to it, so whoever
can rewrite the preamble chooses which decoder sees the plaintext.  Only the
shape of the plaintext then keeps the types apart.  This file states exactly
for which payloads it does.
-/

namespace Yggdrasil.Ratatoskr

open Foundation

def Codec.Readable : Codec → Bytes → Prop
  | heartbeat, plaintext => plaintext.length = heartbeatPtLen
  | heartbeatAck, plaintext => plaintext.length = heartbeatAckPtLen
  | rekey, plaintext => plaintext = []
  | control, plaintext => decodeEnvelope plaintext ≠ none
  | controlAck, plaintext => decodeAck plaintext ≠ none

instance (codec : Codec) (plaintext : Bytes) : Decidable (codec.Readable plaintext) :=
  match codec with
  | .heartbeat => inferInstanceAs (Decidable (_ = _))
  | .heartbeatAck => inferInstanceAs (Decidable (_ = _))
  | .rekey => inferInstanceAs (Decidable (_ = _))
  | .control => inferInstanceAs (Decidable (_ ≠ _))
  | .controlAck => inferInstanceAs (Decidable (_ ≠ _))

private theorem exists_ok_iff_isOk {ε α : Type} (result : Except ε α) :
    (∃ value, result = .ok value) ↔ result.isOk = true := by
  cases result <;> simp [Except.isOk, Except.toBool]

private theorem isOk_map {ε α β : Type} (f : α → β) (result : Except ε α) :
    (result.map f).isOk = result.isOk := by
  cases result <;> rfl

theorem Codec.read_ok_iff (codec : Codec) (counter : UInt64) (plaintext : Bytes) :
    (∃ value, codec.read counter plaintext = .ok value) ↔ codec.Readable plaintext := by
  rw [exists_ok_iff_isOk]
  cases codec with
  | heartbeat =>
      simp only [Codec.read, isOk_map, Codec.Readable, Session.readHeartbeat,
        decodeHeartbeatPlaintext]
      by_cases hlen : plaintext.length = heartbeatPtLen
      · simp [hlen, Except.isOk, Except.toBool, bind, Except.bind]
      · simp [hlen, Except.isOk, Except.toBool, bind, Except.bind]
  | heartbeatAck =>
      simp only [Codec.read, isOk_map, Codec.Readable, Session.readHeartbeatAck,
        decodeHeartbeatAckPlaintext]
      by_cases hlen : plaintext.length = heartbeatAckPtLen
      · simp [hlen, Except.isOk, Except.toBool, bind, Except.bind]
      · simp [hlen, Except.isOk, Except.toBool, bind, Except.bind]
  | rekey =>
      simp only [Codec.read, isOk_map, Codec.Readable, Session.readRekey]
      by_cases hempty : plaintext = []
      · simp [hempty, Except.isOk, Except.toBool]
      · simp [hempty, Except.isOk, Except.toBool]
  | control =>
      simp only [Codec.read, isOk_map, Codec.Readable, Session.readControl,
        Postcard.fromBytes]
      cases decodeEnvelope plaintext <;> simp [Except.isOk, Except.toBool]
  | controlAck =>
      simp only [Codec.read, isOk_map, Codec.Readable, Session.readControlAck,
        Postcard.fromBytes]
      cases decodeAck plaintext <;> simp [Except.isOk, Except.toBool]

def Unframed (plaintext : Bytes) : Prop :=
  decodeEnvelope plaintext = none ∧ decodeAck plaintext = none

instance (plaintext : Bytes) : Decidable (Unframed plaintext) :=
  inferInstanceAs (Decidable (_ ∧ _))

/-- No other decoder reads the payload's plaintext. -/
def Payload.TypeBound : Payload → Prop
  | heartbeat timestampMs flags => Unframed (encodeHeartbeatPlaintext timestampMs flags)
  | heartbeatAck echoedCounter serverTsMs =>
      Unframed (encodeHeartbeatAckPlaintext echoedCounter serverTsMs)
  | rekey => True
  | control envelope =>
      (encodeEnvelope envelope).length ≠ heartbeatPtLen ∧
      (encodeEnvelope envelope).length ≠ heartbeatAckPtLen ∧
      decodeAck (encodeEnvelope envelope) = none
  | controlAck ack =>
      ack.status ≠ .reject 0 ∧ (encodeAck ack).length ≠ heartbeatPtLen

instance (payload : Payload) : Decidable payload.TypeBound :=
  match payload with
  | .heartbeat .. => inferInstanceAs (Decidable (Unframed _))
  | .heartbeatAck .. => inferInstanceAs (Decidable (Unframed _))
  | .rekey => inferInstanceAs (Decidable True)
  | .control _ => inferInstanceAs (Decidable (_ ∧ _ ∧ _))
  | .controlAck _ => inferInstanceAs (Decidable (_ ∧ _))

theorem encodeEnvelope_ne_nil (envelope : ControlEnvelope) : encodeEnvelope envelope ≠ [] := by
  simp [encodeEnvelope]

theorem length_encodeAck_le (ack : ControlAck) : (encodeAck ack).length ≤ 9 := by
  have hseq : (Postcard.encodeU32 ack.seq).length ≤ 5 := length_encodeVarint_le 5 _
  have hstatus : (encodeStatus ack.status).length ≤ 4 := by
    cases ack.status with
    | ok => decide
    | reject code =>
        have hcode : (Postcard.encodeU16 code).length ≤ 3 := length_encodeVarint_le 3 _
        have htag : (Postcard.encodeU32 1).length = 1 := by decide
        simp only [encodeStatus, List.length_append]
        omega
    | unknown => decide
  simp only [encodeAck, List.length_append]
  omega

theorem encodeAck_ne_nil (ack : ControlAck) : encodeAck ack ≠ [] := by
  simp [encodeAck, Postcard.encodeU32_ne_nil]

theorem decodeEnvelope_encodeAck (ack : ControlAck) :
    decodeEnvelope (encodeAck ack) ≠ none ↔ ack.status = .reject 0 := by
  obtain ⟨seq, status⟩ := ack
  have hok : Postcard.encodeU32 0 = [0] := by decide
  have hreject : Postcard.encodeU32 1 = [1] := by decide
  have hunknown : Postcard.encodeU32 2 = [2] := by decide
  cases status with
  | ok =>
      simp [encodeAck, encodeStatus, hok, decodeEnvelope, Postcard.decodeVec,
        Postcard.decodeLen, decodeVarint]
  | unknown =>
      simp [encodeAck, encodeStatus, hunknown, decodeEnvelope, Postcard.decodeVec,
        Postcard.decodeLen, decodeVarint]
  | reject code =>
      have hcode : code.toNat < 2 ^ 64 := by
        have := code.toNat_lt
        omega
      have hlen := Postcard.decodeLen_suffix hcode []
      rw [List.append_nil] at hlen
      have hzero : code.toNat = 0 ↔ code = 0 := by
        rw [← UInt16.toNat_inj]
        rfl
      simp [encodeAck, encodeStatus, hreject, decodeEnvelope, Postcard.decodeVec,
        Postcard.encodeU16_eq_encodeLen, hlen, readBlock, hzero]

theorem Codec.forall_iff {P : Codec → Prop} :
    (∀ codec, P codec) ↔
      P .heartbeat ∧ P .heartbeatAck ∧ P .rekey ∧ P .control ∧ P .controlAck := by
  constructor
  · intro h
    exact ⟨h _, h _, h _, h _, h _⟩
  · rintro ⟨hheartbeat, hheartbeatAck, hrekey, hcontrol, hcontrolAck⟩ codec
    cases codec with
    | heartbeat => exact hheartbeat
    | heartbeatAck => exact hheartbeatAck
    | rekey => exact hrekey
    | control => exact hcontrol
    | controlAck => exact hcontrolAck

theorem Payload.typeBound_iff (payload : Payload) :
    payload.TypeBound ↔
      ∀ codec, codec ≠ payload.codec → ¬ codec.Readable payload.plaintext := by
  rw [Codec.forall_iff]
  cases payload with
  | heartbeat timestampMs flags =>
      have hlen := length_encodeHeartbeatPlaintext timestampMs flags
      have hne := List.ne_nil_of_length_pos (hlen ▸ (by decide : 0 < heartbeatPtLen))
      have hother : heartbeatPtLen ≠ heartbeatAckPtLen := by decide
      simp [TypeBound, Unframed, codec, plaintext, Codec.Readable, hlen, hne, hother]
  | heartbeatAck echoedCounter serverTsMs =>
      have hlen := length_encodeHeartbeatAckPlaintext echoedCounter serverTsMs
      have hne := List.ne_nil_of_length_pos (hlen ▸ (by decide : 0 < heartbeatAckPtLen))
      have hother : heartbeatAckPtLen ≠ heartbeatPtLen := by decide
      simp [TypeBound, Unframed, codec, plaintext, Codec.Readable, hlen, hne, hother]
  | rekey =>
      simp only [TypeBound, true_iff]
      decide
  | control envelope =>
      simp [TypeBound, codec, plaintext, Codec.Readable, encodeEnvelope_ne_nil]
  | controlAck ack =>
      have hother : (encodeAck ack).length ≠ heartbeatAckPtLen :=
        ((length_encodeAck_le ack).trans_lt (by decide)).ne
      simp [TypeBound, codec, plaintext, Codec.Readable, encodeAck_ne_nil,
        decodeEnvelope_encodeAck, hother, and_comm]

namespace Session

variable {Key : Type} (A : Aead Key)

variable {counter : UInt64}

private theorem parse_relabelled {preamble body : Bytes} {view : PacketView}
    (hlen : preamble.length = preambleLen)
    (hparse : parse (preamble ++ (writeCounter counter ++ body)) = .ok view)
    (hcounter : view.counter ≠ none) : view.body = body := by
  obtain ⟨tag, a, b, c, d, rfl⟩ : ∃ tag a b c d, preamble = [tag, a, b, c, d] := by
    match preamble, hlen with
    | [tag, a, b, c, d], _ => exact ⟨tag, a, b, c, d, rfl⟩
  have hwidth : (u64ToBe counter).length = counterLen := by simp [counterLen]
  simp only [List.cons_append, List.nil_append, parse] at hparse
  cases htag : PacketType.fromTag tag with
  | error e => simp [htag, bind, Except.bind] at hparse
  | ok packetType =>
      simp only [htag, bind, Except.bind] at hparse
      split_ifs at hparse with hhas hshort
      · simp only [Except.ok.injEq] at hparse
        rw [← hparse]
        exact List.drop_left' hwidth
      · simp only [Except.ok.injEq] at hparse
        rw [← hparse] at hcounter
        exact absurd rfl hcounter

theorem encode_ok {sender : Session Key} {payload : Payload} {packet : Bytes}
    (h : (sender.encode A payload).2 = .ok (counter, packet)) :
    sender.CanWrite payload.plaintext ∧ counter = sender.sendingCounter ∧
      packet = packetBytes A payload.codec.packetType sender.sessionId
        sender.transport.sendKey sender.sendingCounter payload.plaintext := by
  rw [encode_eq] at h
  rcases sender.encodeWith_cases A payload.codec.packetType payload.plaintext with
    ⟨hwrite, hencode⟩ | ⟨-, e, hencode⟩
  · rw [hencode, Except.ok.injEq, Prod.mk.injEq] at h
    exact ⟨hwrite, h.1.symm, h.2.symm⟩
  · rw [hencode] at h
    simp at h

private theorem drop_packetBytes (packetType : PacketType) (sessionId : SessionId) (key : Key)
    (counter : UInt64) (plaintext : Bytes) :
    (packetBytes A packetType sessionId key counter plaintext).drop preambleLen =
      writeCounter counter ++ A.encrypt key counter plaintext := by
  have hlen : (writePreamble packetType sessionId).length = preambleLen := by
    simp [writePreamble, sessionId.length_eq, preambleLen]
  rw [packetBytes, List.append_assoc, List.drop_left' hlen]

private theorem readable_of_decode {receiver : Session Key} {codec : Codec} {view : PacketView}
    {key : Key} {plaintext : Bytes} {value : Decoded}
    (hbody : view.counter ≠ none → view.body = A.encrypt key counter plaintext)
    (hdecode : (receiver.decode A codec view).2 = .ok value) : codec.Readable plaintext := by
  rcases receiver.decode_cases A codec view with
    ⟨seen, opened, hopens, heq⟩ | ⟨-, nonce, e, heq⟩
  · have hopen := A.eq_encrypt_of_decrypt hopens.opens
    rw [hbody (by simp [hopens.hasCounter])] at hopen
    obtain ⟨-, -, rfl⟩ := A.encrypt_inj hopen
    rw [heq] at hdecode
    exact (codec.read_ok_iff seen plaintext).1 ⟨value, hdecode⟩
  · rw [heq] at hdecode
    simp at hdecode

/-- A receiver accepts any packet of its peer under the label of a reader that fits. -/
private theorem decode_relabelled {sender receiver : Session Key}
    (hpaired : Paired sender receiver) {codec : Codec} {plaintext : Bytes}
    (hwrite : sender.CanWrite plaintext) (hread : codec.Readable plaintext) :
    ∃ value, (receiver.decode A codec ⟨codec.packetType, sender.sessionId,
      some sender.sendingCounter, A.encrypt sender.transport.sendKey sender.sendingCounter
        plaintext⟩).2 = .ok value := by
  obtain ⟨value, hvalue⟩ := (codec.read_ok_iff sender.sendingCounter plaintext).2 hread
  have hfits := hwrite.1
  have hopens : receiver.Opens A codec.packetType ⟨codec.packetType, sender.sessionId,
      some sender.sendingCounter, A.encrypt sender.transport.sendKey sender.sendingCounter
        plaintext⟩ sender.sendingCounter plaintext := by
    refine ⟨rfl, hpaired.sessionId_eq.symm, rfl, hpaired.fresh, ?_, hwrite.2, ?_⟩
    · rw [A.length_encrypt]
      omega
    · rw [hpaired.key_eq]
      simp
  refine ⟨value, ?_⟩
  rcases receiver.decode_cases A codec _ with ⟨seen, opened, hopens', heq⟩ | ⟨hclosed, -⟩
  · obtain ⟨rfl, rfl⟩ := Opens.unique A hopens' hopens
    rw [heq]
    exact hvalue
  · exact absurd hopens (hclosed _ _)

/--
No rewriting of a packet's preamble gets it through a decoder of another type
exactly when its payload is type-bound.
-/
theorem packet_type_authentic_iff {sender receiver : Session Key}
    (hpaired : Paired sender receiver) {payload : Payload} {counter : UInt64}
    {packet : Bytes} (hsend : (sender.encode A payload).2 = .ok (counter, packet)) :
    (∀ preamble : Bytes, preamble.length = preambleLen →
      ∀ view, parse (preamble ++ packet.drop preambleLen) = .ok view →
      ∀ codec, codec ≠ payload.codec →
      ∀ value, (receiver.decode A codec view).2 ≠ .ok value) ↔
    payload.TypeBound := by
  obtain ⟨hwrite, rfl, rfl⟩ := encode_ok A hsend
  rw [drop_packetBytes, payload.typeBound_iff]
  constructor
  · intro h codec hcodec hread
    obtain ⟨value, hvalue⟩ := decode_relabelled A hpaired hwrite hread
    refine h (writePreamble codec.packetType sender.sessionId) ?_ _ ?_ codec hcodec value
      hvalue
    · simp [writePreamble, sender.sessionId.length_eq, preambleLen]
    · rw [← List.append_assoc]
      exact parse_counter_packet codec.hasCounter_packetType _ _ _
  · intro h preamble hlen view hparse codec hcodec value hdecode
    have hbody : view.counter ≠ none → view.body =
        A.encrypt sender.transport.sendKey sender.sendingCounter payload.plaintext :=
      parse_relabelled hlen hparse
    exact h codec hcodec (readable_of_decode A hbody hdecode)

/-- A heartbeat whose tag byte is rewritten from 0x03 to 0x07 is accepted as an ack. -/
theorem heartbeat_accepted_as_controlAck :
    (toySender.encode Aead.transparent (.heartbeat 11 0)).2 =
      .ok (0, packetBytes Aead.transparent .heartbeat toyId 7 0
        (encodeHeartbeatPlaintext 11 0)) ∧
    parse (0x07 :: (packetBytes Aead.transparent .heartbeat toyId 7 0
        (encodeHeartbeatPlaintext 11 0)).tail) =
      .ok ⟨.controlAck, toyId, some 0,
        Aead.transparent.encrypt 7 0 (encodeHeartbeatPlaintext 11 0)⟩ ∧
    (toyReceiver.decode Aead.transparent .controlAck ⟨.controlAck, toyId, some 0,
        Aead.transparent.encrypt 7 0 (encodeHeartbeatPlaintext 11 0)⟩).2 =
      .ok (.controlAck ⟨0, .ok⟩) := by
  refine ⟨rfl, ?_, ?_⟩
  · rfl
  · rfl

theorem packet_type_authentic_iff_toy :
    (Payload.controlAck ⟨1, .ok⟩).TypeBound ∧
    ∀ preamble : Bytes, preamble.length = preambleLen →
      ∀ view, parse (preamble ++ (packetBytes Aead.transparent .controlAck toyId 7 0
        (encodeAck ⟨1, .ok⟩)).drop preambleLen) = .ok view →
      ∀ codec, codec ≠ .controlAck →
      ∀ value, (toyReceiver.decode Aead.transparent codec view).2 ≠ .ok value := by
  have hbound : (Payload.controlAck ⟨1, .ok⟩).TypeBound := by decide
  have hsend : (toySender.encode Aead.transparent (.controlAck ⟨1, .ok⟩)).2 =
      .ok (0, packetBytes Aead.transparent .controlAck toyId 7 0 (encodeAck ⟨1, .ok⟩)) := rfl
  exact ⟨hbound, (packet_type_authentic_iff Aead.transparent paired_toy hsend).2 hbound⟩

end Session

end Yggdrasil.Ratatoskr
