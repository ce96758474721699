import Yggdrasil.Foundation.Text
import Yggdrasil.Ratatoskr.Session

/-!
# Public keys and the responder's half of the handshake

The `IK` handshake itself is a parameter: reading the first message yields the
initiator's static key, writing the second one with a drawn ephemeral fixes the
transport keys.  No two ephemerals give the same receiving key.
-/

namespace Yggdrasil.Ratatoskr

open Foundation

def x25519PublicLen : Nat := 32

structure X25519Key where
  bytes : Bytes
  length_eq : bytes.length = x25519PublicLen
  deriving DecidableEq, Repr

def X25519Key.zero : X25519Key := ⟨List.replicate 32 (.ofNat 0), List.length_replicate⟩

inductive PubKey where
  | x25519 (key : X25519Key)
  deriving DecidableEq, Repr

/-- The hash is BLAKE2s-128. -/
def PubKey.fingerprint (hash : Bytes → Bytes) : PubKey → Text
  | x25519 key => "x25519".toList ++ ':' :: Text.hexEncode (hash key.bytes)

structure NoiseIk (Key Transcript Ephemeral : Type) where
  /-- `read_message`, with what `get_remote_static` yields afterwards. -/
  readMessage : Bytes → Except SnowError (Option Bytes × Transcript)
  writeMessage : Transcript → Ephemeral → Except SnowError Bytes
  sendKey : Transcript → Ephemeral → Key
  recvKey : Transcript → Ephemeral → Key
  recvKey_inj : ∀ {transcript transcript' ephemeral ephemeral'},
    recvKey transcript ephemeral = recvKey transcript' ephemeral' → ephemeral = ephemeral'

/-- A handshake that has read `Handshake1` but not written `Handshake2`. -/
structure HalfHandshake (Transcript : Type) where
  inner : Transcript
  sessionId : SessionId
  remotePublic : PubKey

namespace NoiseIk

variable {Key Transcript Ephemeral : Type} (noise : NoiseIk Key Transcript Ephemeral)

def processHandshake1 (view : PacketView) : Except Error (HalfHandshake Transcript) :=
  if view.packetType ≠ .handshake1 then .error (.auth "expected Handshake1")
  else
    match noise.readMessage view.body with
    | .error e => .error (.noise e)
    | .ok (none, _) => .error (.auth "Handshake1 carried no static key")
    | .ok (some raw, inner) =>
        if h : raw.length = x25519PublicLen then
          .ok ⟨inner, view.sessionId, .x25519 ⟨raw, h⟩⟩
        else .error (.auth "remote static key has wrong length")

def complete (half : HalfHandshake Transcript) (ephemeral : Ephemeral) :
    Except Error (Session Key × Bytes) :=
  match noise.writeMessage half.inner ephemeral with
  | .error e => .error (.noise e)
  | .ok message =>
      .ok (⟨⟨noise.sendKey half.inner ephemeral, noise.recvKey half.inner ephemeral, 0, 0⟩,
          half.sessionId, none⟩,
        writePreamble .handshake2 half.sessionId ++ message)

theorem recvKey_of_complete {half : HalfHandshake Transcript} {ephemeral : Ephemeral}
    {session : Session Key} {reply : Bytes}
    (h : noise.complete half ephemeral = .ok (session, reply)) :
    session.transport.recvKey = noise.recvKey half.inner ephemeral := by
  unfold complete at h
  split at h
  · cases h
  · cases h
    rfl

/--
The transparent instance: the first message spells out the initiator's key and
the second one is empty.  Concrete runs are evaluated with it.
-/
def transparent : NoiseIk UInt64 Bytes UInt32 where
  readMessage message := .ok (some message, message)
  writeMessage _ _ := .ok []
  sendKey _ ephemeral := ~~~ ephemeral.toUInt64
  recvKey _ ephemeral := ephemeral.toUInt64
  recvKey_inj := by
    intro _ _ ephemeral ephemeral' h
    rw [← UInt32.toNat_inj]
    have hnat := congrArg UInt64.toNat h
    simpa using hnat

end NoiseIk

end Yggdrasil.Ratatoskr
