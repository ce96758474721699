import Yggdrasil.Foundation.Aead
import Yggdrasil.Foundation.Check

/-!
# Wire format of the chain control plane

Every packet starts with a five-byte preamble, a tag and a session identifier.
Post-handshake packets carry an eight-byte big-endian counter in cleartext
before the ciphertext.  `parse` is the pre-authentication parser that runs on
every received datagram.
-/

namespace Yggdrasil.Ratatoskr

open Foundation

inductive SnowError where
  | input
  | exhausted
  | decrypt
  deriving DecidableEq, Repr

inductive Error where
  | postcard
  | noise (source : SnowError)
  | auth (message : String)
  | replay (counter lastSeen : UInt64)
  | malformedPacket (message : String)
  | unknownPacketType (tag : UInt8)
  deriving DecidableEq, Repr

def preambleLen : Nat := 1 + 4
def counterLen : Nat := 8
def heartbeatPtLen : Nat := 8 + 1
def heartbeatAckPtLen : Nat := 8 + 8
def maxControlPlaintextLen : Nat := 17 * 1024
def maxPacketLen : Nat :=
  preambleLen + counterLen + maxControlPlaintextLen + aeadTagLen

inductive PacketType where
  | handshake1
  | handshake2
  | heartbeat
  | heartbeatAck
  | rekey
  | control
  | controlAck
  deriving DecidableEq, Repr

namespace PacketType

def tag : PacketType → UInt8
  | handshake1 => 0x01
  | handshake2 => 0x02
  | heartbeat => 0x03
  | heartbeatAck => 0x04
  | rekey => 0x05
  | control => 0x06
  | controlAck => 0x07

def fromTag (tag : UInt8) : Except Error PacketType :=
  match tag with
  | 0x01 => .ok handshake1
  | 0x02 => .ok handshake2
  | 0x03 => .ok heartbeat
  | 0x04 => .ok heartbeatAck
  | 0x05 => .ok rekey
  | 0x06 => .ok control
  | 0x07 => .ok controlAck
  | other => .error (.unknownPacketType other)

def hasCounter : PacketType → Bool
  | heartbeat | heartbeatAck | rekey | control | controlAck => true
  | handshake1 | handshake2 => false

@[simp] theorem fromTag_tag (packetType : PacketType) :
    fromTag packetType.tag = .ok packetType := by
  cases packetType <;> rfl

theorem fromTag_eq_ok_iff {tag : UInt8} {packetType : PacketType} :
    fromTag tag = .ok packetType ↔ packetType.tag = tag := by
  constructor
  · intro h
    unfold fromTag at h
    split at h
    case h_8 => cases h
    all_goals
      cases h
      rfl
  · rintro rfl
    exact fromTag_tag packetType

end PacketType

structure SessionId where
  bytes : Bytes
  length_eq : bytes.length = 4
  deriving DecidableEq, Repr

structure PacketView where
  packetType : PacketType
  sessionId : SessionId
  /-- Absent exactly on handshake packets. -/
  counter : Option UInt64
  body : Bytes
  deriving DecidableEq, Repr

def parse (buf : Bytes) : Except Error PacketView :=
  match buf with
  | tag :: a :: b :: c :: d :: rest => do
      let packetType ← PacketType.fromTag tag
      let sessionId : SessionId := ⟨[a, b, c, d], rfl⟩
      if packetType.hasCounter then
        if rest.length < counterLen then
          .error (.malformedPacket "packet shorter than preamble + counter")
        else
          .ok ⟨packetType, sessionId, some (u64OfBe (rest.take counterLen)),
            rest.drop counterLen⟩
      else
        .ok ⟨packetType, sessionId, none, rest⟩
  | _ => .error (.malformedPacket "packet shorter than preamble")

def writePreamble (packetType : PacketType) (sessionId : SessionId) : Bytes :=
  packetType.tag :: sessionId.bytes

def writeCounter (counter : UInt64) : Bytes := u64ToBe counter

private theorem SessionId.eq_four (sessionId : SessionId) :
    ∃ a b c d, sessionId = ⟨[a, b, c, d], rfl⟩ := by
  obtain ⟨bytes, hlen⟩ := sessionId
  match bytes, hlen with
  | [a, b, c, d], _ => exact ⟨a, b, c, d, rfl⟩

theorem parse_counter_packet {packetType : PacketType} (h : packetType.hasCounter = true)
    (sessionId : SessionId) (counter : UInt64) (body : Bytes) :
    parse (writePreamble packetType sessionId ++ writeCounter counter ++ body) =
      .ok ⟨packetType, sessionId, some counter, body⟩ := by
  obtain ⟨a, b, c, d, rfl⟩ := sessionId.eq_four
  have hlen : (u64ToBe counter).length = counterLen := by simp [counterLen]
  simp only [writePreamble, writeCounter, List.cons_append, List.nil_append, parse,
    PacketType.fromTag_tag]
  change (if packetType.hasCounter = true then _ else _) = _
  rw [if_pos h, if_neg (by simp [hlen]), List.take_left' hlen, List.drop_left' hlen]
  simp

theorem parse_handshake_packet {packetType : PacketType} (h : packetType.hasCounter = false)
    (sessionId : SessionId) (body : Bytes) :
    parse (writePreamble packetType sessionId ++ body) =
      .ok ⟨packetType, sessionId, none, body⟩ := by
  obtain ⟨a, b, c, d, rfl⟩ := sessionId.eq_four
  simp only [writePreamble, List.cons_append, List.nil_append, parse,
    PacketType.fromTag_tag]
  change (if packetType.hasCounter = true then _ else _) = _
  rw [if_neg (by simp [h])]

def encodeHeartbeatPlaintext (timestampMs : UInt64) (flags : UInt8) : Bytes :=
  u64ToBe timestampMs ++ [flags]

def decodeHeartbeatPlaintext (buf : Bytes) : Except Error (UInt64 × UInt8) :=
  if buf.length ≠ heartbeatPtLen then
    .error (.malformedPacket "heartbeat plaintext wrong length")
  else
    .ok (u64OfBe (buf.take 8), buf.getD 8 0)

def encodeHeartbeatAckPlaintext (echoedCounter serverTsMs : UInt64) : Bytes :=
  u64ToBe echoedCounter ++ u64ToBe serverTsMs

def decodeHeartbeatAckPlaintext (buf : Bytes) : Except Error (UInt64 × UInt64) :=
  if buf.length ≠ heartbeatAckPtLen then
    .error (.malformedPacket "heartbeat-ack plaintext wrong length")
  else
    .ok (u64OfBe (buf.take 8), u64OfBe (buf.drop 8))

@[simp] theorem length_encodeHeartbeatPlaintext (timestampMs : UInt64) (flags : UInt8) :
    (encodeHeartbeatPlaintext timestampMs flags).length = heartbeatPtLen := by
  simp [encodeHeartbeatPlaintext, heartbeatPtLen]

@[simp] theorem length_encodeHeartbeatAckPlaintext (echoedCounter serverTsMs : UInt64) :
    (encodeHeartbeatAckPlaintext echoedCounter serverTsMs).length = heartbeatAckPtLen := by
  simp [encodeHeartbeatAckPlaintext, heartbeatAckPtLen]

@[simp] theorem decodeHeartbeatPlaintext_encode (timestampMs : UInt64) (flags : UInt8) :
    decodeHeartbeatPlaintext (encodeHeartbeatPlaintext timestampMs flags) =
      .ok (timestampMs, flags) := by
  have hlen : (u64ToBe timestampMs).length = 8 := by simp
  rw [decodeHeartbeatPlaintext, if_neg (by simp)]
  have hflag : (u64ToBe timestampMs ++ [flags]).getD 8 0 = flags := by
    simp [List.getD_eq_getElem?_getD]
  rw [encodeHeartbeatPlaintext, List.take_left' hlen, hflag, u64OfBe_u64ToBe]

@[simp] theorem decodeHeartbeatAckPlaintext_encode (echoedCounter serverTsMs : UInt64) :
    decodeHeartbeatAckPlaintext (encodeHeartbeatAckPlaintext echoedCounter serverTsMs) =
      .ok (echoedCounter, serverTsMs) := by
  have hlen : (u64ToBe echoedCounter).length = 8 := by simp
  rw [decodeHeartbeatAckPlaintext, if_neg (by simp)]
  rw [encodeHeartbeatAckPlaintext, List.take_left' hlen, List.drop_left' hlen]
  simp

namespace PacketView

def encode (view : PacketView) : Bytes :=
  writePreamble view.packetType view.sessionId ++
    (match view.counter with
      | some counter => writeCounter counter
      | none => []) ++ view.body

/-- The counter is present exactly on post-handshake packets. -/
def WellFramed (view : PacketView) : Prop :=
  view.counter.isSome = view.packetType.hasCounter

end PacketView

theorem parse_encode {view : PacketView} (hframed : view.WellFramed) :
    parse view.encode = .ok view := by
  obtain ⟨packetType, sessionId, counter, body⟩ := view
  cases counter with
  | some counter => exact parse_counter_packet hframed.symm sessionId counter body
  | none =>
      rw [PacketView.encode, List.append_nil]
      exact parse_handshake_packet hframed.symm sessionId body

variable {buf : Bytes}

theorem of_parse {view : PacketView} (h : parse buf = .ok view) :
    view.WellFramed ∧ view.encode = buf := by
  unfold parse at h
  split at h
  case h_2 => cases h
  rename_i tag a b c d rest
  obtain ⟨packetType, htype, hview⟩ := bind_ok_iff.1 h
  obtain rfl := PacketType.fromTag_eq_ok_iff.1 htype
  dsimp only at hview
  split at hview
  · rename_i hcounter
    split at hview
    · cases hview
    · rename_i hlength
      cases hview
      have hword : (rest.take counterLen).length = 8 := by
        rw [List.length_take, Nat.min_eq_left (Nat.le_of_not_lt hlength)]
        rfl
      refine ⟨hcounter.symm, ?_⟩
      simp only [PacketView.encode, writePreamble, writeCounter, u64ToBe_u64OfBe hword,
        List.take_append_drop, List.cons_append, List.nil_append]
  · rename_i hcounter
    cases hview
    exact ⟨(Bool.eq_false_of_not_eq_true hcounter).symm, rfl⟩

theorem decodeHeartbeatPlaintext_eq_ok_iff {timestampMs : UInt64} {flags : UInt8} :
    decodeHeartbeatPlaintext buf = .ok (timestampMs, flags) ↔
      encodeHeartbeatPlaintext timestampMs flags = buf := by
  constructor
  · intro h
    unfold decodeHeartbeatPlaintext at h
    split at h
    · cases h
    · rename_i hlength
      cases h
      have hlength' : buf.length = 9 := not_not.1 hlength
      have hword : (buf.take 8).length = 8 := by
        rw [List.length_take, hlength']
        rfl
      have hlast : buf.drop 8 = [buf.getD 8 0] := by
        rw [List.drop_eq_getElem_cons (by omega), List.drop_eq_nil_of_le (by omega),
          List.getD_eq_getElem?_getD, List.getElem?_eq_getElem (by omega), Option.getD_some]
      rw [encodeHeartbeatPlaintext, u64ToBe_u64OfBe hword, ← hlast, List.take_append_drop]
  · rintro rfl
    exact decodeHeartbeatPlaintext_encode timestampMs flags

theorem decodeHeartbeatAckPlaintext_eq_ok_iff {echoedCounter serverTsMs : UInt64} :
    decodeHeartbeatAckPlaintext buf = .ok (echoedCounter, serverTsMs) ↔
      encodeHeartbeatAckPlaintext echoedCounter serverTsMs = buf := by
  constructor
  · intro h
    unfold decodeHeartbeatAckPlaintext at h
    split at h
    · cases h
    · rename_i hlength
      cases h
      have hlength' : buf.length = 16 := not_not.1 hlength
      have hfirst : (buf.take 8).length = 8 := by
        rw [List.length_take, hlength']
        rfl
      have hsecond : (buf.drop 8).length = 8 := by
        rw [List.length_drop, hlength']
      rw [encodeHeartbeatAckPlaintext, u64ToBe_u64OfBe hfirst, u64ToBe_u64OfBe hsecond,
        List.take_append_drop]
  · rintro rfl
    exact decodeHeartbeatAckPlaintext_encode echoedCounter serverTsMs

theorem isOk_decodeHeartbeatPlaintext_iff (buf : Bytes) :
    (decodeHeartbeatPlaintext buf).isOk = true ↔ buf.length = heartbeatPtLen := by
  by_cases hlength : buf.length = heartbeatPtLen
  · simp [decodeHeartbeatPlaintext, hlength, Except.isOk, Except.toBool]
  · simp [decodeHeartbeatPlaintext, hlength, Except.isOk, Except.toBool]

theorem isOk_decodeHeartbeatAckPlaintext_iff (buf : Bytes) :
    (decodeHeartbeatAckPlaintext buf).isOk = true ↔ buf.length = heartbeatAckPtLen := by
  by_cases hlength : buf.length = heartbeatAckPtLen
  · simp [decodeHeartbeatAckPlaintext, hlength, Except.isOk, Except.toBool]
  · simp [decodeHeartbeatAckPlaintext, hlength, Except.isOk, Except.toBool]

theorem wire_framing_bijective :
    (∀ view : PacketView, view.WellFramed → parse view.encode = .ok view) ∧
      (∀ buf view, parse buf = .ok view → view.WellFramed ∧ view.encode = buf) ∧
      (∀ buf timestampMs flags, decodeHeartbeatPlaintext buf = .ok (timestampMs, flags) ↔
        encodeHeartbeatPlaintext timestampMs flags = buf) ∧
      (∀ buf echoedCounter serverTsMs,
        decodeHeartbeatAckPlaintext buf = .ok (echoedCounter, serverTsMs) ↔
          encodeHeartbeatAckPlaintext echoedCounter serverTsMs = buf) ∧
      (∀ buf, (decodeHeartbeatPlaintext buf).isOk = true ↔ buf.length = heartbeatPtLen) ∧
      ∀ buf, (decodeHeartbeatAckPlaintext buf).isOk = true ↔ buf.length = heartbeatAckPtLen :=
  ⟨fun _ => parse_encode, fun _ _ => of_parse, fun _ _ _ => decodeHeartbeatPlaintext_eq_ok_iff,
    fun _ _ _ => decodeHeartbeatAckPlaintext_eq_ok_iff, isOk_decodeHeartbeatPlaintext_iff,
    isOk_decodeHeartbeatAckPlaintext_iff⟩

end Yggdrasil.Ratatoskr
