import Yggdrasil.Chain.Endpoint
import Yggdrasil.Foundation.Net

/-!
# The heartbeat server's side of one session

The server answers heartbeats, hands control bodies to its chain acceptor and
sends relay-initiated envelopes without retransmission.  It never enqueues on
its control channel, so no completion handle can exist there.
-/

namespace Yggdrasil.Heartbeat

open Foundation Ratatoskr Chain

structure SessionState (Key : Type) extends Endpoint Key Empty where
  lastPeerAddr : SocketAddr
  nextOutboundSeq : UInt32

namespace SessionState

variable {Key δ : Type} (A : Aead Key)

def new (session : Session Key) (src : SocketAddr) : SessionState Key :=
  { session, channel := .new, lastPeerAddr := src, nextOutboundSeq := 0 }

/--
The decoded heartbeat and its ack, or nothing for a rejected packet.  The ack is
missing where it could not be encoded.
-/
def handleHeartbeat (state : SessionState Key) (view : PacketView) (now : UInt64) :
    SessionState Key × Option (DecodedHeartbeat × List Sent) :=
  match state.session.decodeHeartbeat A view with
  | (session, .error _) => ({ state with session }, none)
  | (session, .ok decoded) =>
      let (session, sent) := session.emit A (.heartbeatAck decoded.counter now)
      ({ state with session }, some (decoded, sent))

def handleControl (dispatch : Dispatcher δ) (world : δ) (state : SessionState Key)
    (view : PacketView) : δ × SessionState Key × Output Empty :=
  let (world, endpoint, output) := state.toEndpoint.receiveControl A dispatch world view
  (world, { state with toEndpoint := endpoint }, output)

def handleOutbound (state : SessionState Key) (envelope : ControlEnvelope) :
    SessionState Key × List Sent :=
  let seq := state.nextOutboundSeq
  let (session, sent) := state.session.emit A (.control { envelope with seq })
  ({ state with session, nextOutboundSeq := seq + 1 }, sent)

def receive (dispatch : Dispatcher δ) (world : δ) (state : SessionState Key)
    (bytes : Bytes) (now : UInt64) : δ × SessionState Key × Output Empty :=
  match parse bytes with
  | .error _ => (world, state, .empty)
  | .ok view =>
      match view.packetType with
      | .heartbeat =>
          let (state, answer) := state.handleHeartbeat A view now
          (world, state, ⟨(answer.map Prod.snd).getD [], [], []⟩)
      | .control => state.handleControl A dispatch world view
      | _ => (world, state, .empty)

theorem handleHeartbeat_cases (state : SessionState Key) (view : PacketView) (now : UInt64) :
    (∃ counter answer, state.session.Fresh counter ∧
      state.handleHeartbeat A view now =
        ({ state with session :=
            ((state.session.accept counter).emit A (.heartbeatAck answer.counter now)).1 },
          some (answer,
            ((state.session.accept counter).emit A (.heartbeatAck answer.counter now)).2))) ∨
    (∃ counter, state.session.Fresh counter ∧ state.handleHeartbeat A view now =
      ({ state with session := state.session.accept counter }, none)) ∨
    (∃ nonce, state.handleHeartbeat A view now =
      ({ state with session := state.session.retune nonce }, none)) := by
  unfold handleHeartbeat Session.decodeHeartbeat Session.decodeWith
  rcases state.session.decodePacket_cases A .heartbeat view with
    ⟨counter, plaintext, hopens, hdecode⟩ | ⟨-, nonce, e, hdecode⟩
  · rw [hdecode]
    cases hread : Session.readHeartbeat (view.counter.getD 0) plaintext with
    | error e =>
        right
        left
        exact ⟨counter, hopens.fresh, by simp only [hread]⟩
    | ok answer =>
        left
        exact ⟨counter, answer, hopens.fresh, by simp only [hread]⟩
  · right
    right
    exact ⟨nonce, by rw [hdecode]⟩

theorem recvKey_handleHeartbeat (state : SessionState Key) (view : PacketView) (now : UInt64) :
    (state.handleHeartbeat A view now).1.session.transport.recvKey =
      state.session.transport.recvKey := by
  have hkey := state.session.recvKey_decodeWith A .heartbeat Session.readHeartbeat view
  unfold handleHeartbeat Session.decodeHeartbeat
  cases hdecode : state.session.decodeWith A .heartbeat Session.readHeartbeat view with
  | mk session verdict =>
      rw [hdecode] at hkey
      cases verdict with
      | error e => exact hkey
      | ok decoded => exact (session.recvKey_emit A _).trans hkey

theorem recvKey_handleControl (dispatch : Dispatcher δ) (world : δ) (state : SessionState Key)
    (view : PacketView) :
    (state.handleControl A dispatch world view).2.1.session.transport.recvKey =
      state.session.transport.recvKey := by
  have hkey := state.session.recvKey_decodeWith A .control Session.readControl view
  unfold handleControl Endpoint.receiveControl Session.decodeControl
  cases hdecode : state.session.decodeWith A .control Session.readControl view with
  | mk session verdict =>
      rw [hdecode] at hkey
      cases verdict with
      | error e => exact hkey
      | ok envelope =>
          cases hinbound : state.channel.onInbound envelope with
          | mk channel disposition =>
              cases disposition with
              | deliver delivered =>
                  simp only [hinbound]
                  exact (session.recvKey_emit A _).trans hkey
              | duplicate =>
                  simp only [hinbound]
                  exact (session.recvKey_emit A _).trans hkey

theorem recvKey_handleOutbound (state : SessionState Key) (envelope : ControlEnvelope) :
    (state.handleOutbound A envelope).1.session.transport.recvKey =
      state.session.transport.recvKey :=
  state.session.recvKey_emit A _

end SessionState

end Yggdrasil.Heartbeat
