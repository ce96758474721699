import Yggdrasil.Foundation.Postcard
import Yggdrasil.Ratatoskr.Wire

/-!
# Control-plane frames

The transport envelope carried inside `Control` packets and its
acknowledgement, with the registry of body types.  Both travel
postcard-encoded inside the AEAD ciphertext.
-/

namespace Yggdrasil.Ratatoskr

open Foundation Foundation.Postcard

structure ControlEnvelope where
  seq : UInt32
  bodyType : UInt8
  body : Bytes
  deriving DecidableEq, Repr

inductive AckStatus where
  | ok
  | reject (code : UInt16)
  | unknown
  deriving DecidableEq, Repr

structure ControlAck where
  seq : UInt32
  status : AckStatus
  deriving DecidableEq, Repr

inductive ControlBodyType where
  | reserved
  | noop
  | predicateSetUpdate
  | chainHopQuery
  | chainHopReply
  | canaryArm
  | canaryReply
  deriving DecidableEq, Repr

namespace ControlBodyType

def asByte : ControlBodyType → UInt8
  | reserved => 0x00
  | noop => 0x01
  | predicateSetUpdate => 0x02
  | chainHopQuery => 0x03
  | chainHopReply => 0x04
  | canaryArm => 0x05
  | canaryReply => 0x06

def fromByte (byte : UInt8) : Option ControlBodyType :=
  match byte with
  | 0x00 => some reserved
  | 0x01 => some noop
  | 0x02 => some predicateSetUpdate
  | 0x03 => some chainHopQuery
  | 0x04 => some chainHopReply
  | 0x05 => some canaryArm
  | 0x06 => some canaryReply
  | _ => none

@[simp] theorem fromByte_asByte (kind : ControlBodyType) :
    fromByte kind.asByte = some kind := by
  cases kind <;> rfl

theorem asByte_of_fromByte {byte : UInt8} {kind : ControlBodyType}
    (h : fromByte byte = some kind) : kind.asByte = byte := by
  unfold fromByte at h
  split at h <;> cases h <;> rfl

end ControlBodyType

def encodeEnvelope (envelope : ControlEnvelope) : Bytes :=
  encodeU32 envelope.seq ++ envelope.bodyType :: encodeVec envelope.body

def decodeEnvelope : Reader ControlEnvelope := fun bytes => do
  let (seq, bytes) ← decodeU32 bytes
  let (bodyType, bytes) ← readByte bytes
  let (body, rest) ← decodeVec bytes
  some (⟨seq, bodyType, body⟩, rest)

theorem decodeEnvelope_suffix {envelope : ControlEnvelope}
    (h : envelope.body.length < 2 ^ 64) (rest : Bytes) :
    decodeEnvelope (encodeEnvelope envelope ++ rest) = some (envelope, rest) := by
  simp [encodeEnvelope, decodeEnvelope, decodeVec_suffix h, List.append_assoc]

def encodeStatus : AckStatus → Bytes
  | .ok => encodeU32 0
  | .reject code => encodeU32 1 ++ encodeU16 code
  | .unknown => encodeU32 2

def decodeStatus : Reader AckStatus := fun bytes => do
  let (variant, rest) ← decodeU32 bytes
  match variant with
  | 0 => some (.ok, rest)
  | 1 => do
      let (code, rest) ← decodeU16 rest
      some (.reject code, rest)
  | 2 => some (.unknown, rest)
  | _ => none

def encodeAck (ack : ControlAck) : Bytes :=
  encodeU32 ack.seq ++ encodeStatus ack.status

def decodeAck : Reader ControlAck := fun bytes => do
  let (seq, bytes) ← decodeU32 bytes
  let (status, rest) ← decodeStatus bytes
  some (⟨seq, status⟩, rest)

@[simp] theorem decodeStatus_suffix (status : AckStatus) (rest : Bytes) :
    decodeStatus (encodeStatus status ++ rest) = some (status, rest) := by
  cases status <;> simp [encodeStatus, decodeStatus, List.append_assoc]

@[simp] theorem decodeAck_suffix (ack : ControlAck) (rest : Bytes) :
    decodeAck (encodeAck ack ++ rest) = some (ack, rest) := by
  simp [encodeAck, decodeAck, List.append_assoc]

end Yggdrasil.Ratatoskr
