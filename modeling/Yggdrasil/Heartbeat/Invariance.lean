import Yggdrasil.Heartbeat.Server
import Yggdrasil.Proxy.UdpFlows

/-!
# Heartbeats and the data plane

A relay shares the peer's address between its heartbeat server and a UDP rule.
The address moves, and the rule's watcher is woken, at an accepted heartbeat
from another address than the one accepted before it, and at nothing else that
reaches the server.
-/

namespace Yggdrasil.Heartbeat

open Foundation Ratatoskr Chain
open Yggdrasil.Proxy (UdpRule UdpProxy UdpEvent)

section

variable {Key Transcript Ephemeral δ : Type} (A : Aead Key)
  (noise : NoiseIk Key Transcript Ephemeral) (dispatch : Dispatcher δ)
  (hash : Bytes → Bytes)

/--
A heartbeat of the live session that decrypts under its key, passes the replay
check, and whose ack is encoded and sent.
-/
def HeartbeatServer.acceptsHeartbeat (server : HeartbeatServer Key δ) (bytes : Bytes)
    (io : Io Ephemeral) : Bool :=
  match parse bytes, server.session with
  | .ok view, some live =>
      view.packetType = .heartbeat &&
        match live.state.session.decodeHeartbeat A view with
        | (session, .ok decoded) =>
            (session.encode A (.heartbeatAck decoded.counter io.now)).2.isOk && io.sent
        | (_, .error _) => false
  | _, _ => false

structure Relay (Key δ : Type) where
  server : HeartbeatServer Key δ
  proxy : UdpProxy
  accepted : List SocketAddr

namespace Relay

inductive Event (Ephemeral : Type) where
  | packet (bytes : Bytes) (io : Io Ephemeral)
  | outbound (envelope : ControlEnvelope)
  | approve (query : Text) (configWritten : Bool)
  | udp (event : UdpEvent)

def start (peerStaticKey : Option PubKey) (acceptor : δ) (workers : Nat) : Relay Key δ :=
  ⟨.start (.new peerStaticKey) acceptor, .start workers, []⟩

def step (rule : UdpRule) (relay : Relay Key δ) : Event Ephemeral → Option (Relay Key δ)
  | .packet bytes io =>
      some { relay with
        server := relay.server.handlePacket A noise dispatch bytes io
        accepted := if relay.server.acceptsHeartbeat A bytes io then relay.accepted ++ [io.src]
          else relay.accepted }
  | .outbound envelope => some { relay with server := relay.server.handleOutbound A envelope }
  | .approve query configWritten =>
      some { relay with server := relay.server.approve hash query configWritten }
  | .udp event =>
      (relay.proxy.step rule relay.server.peerState event).map (fun proxy =>
        { relay with proxy := proxy })

def lastIp (relay : Relay Key δ) : Option IpAddr := relay.accepted.getLast?.map SocketAddr.ip

/-- An accepted heartbeat that is the first, or comes from elsewhere than the one before it. -/
def NewAddress (relay : Relay Key δ) (event : Event Ephemeral) : Prop :=
  ∃ bytes io, event = .packet bytes io ∧ relay.server.acceptsHeartbeat A bytes io = true ∧
    relay.lastIp ≠ some io.src.ip

def Quiet (relay : Relay Key δ) : Prop :=
  relay.proxy.watcher = .unborn ∨ relay.proxy.watcher = .waiting relay.server.peerState.notified

def Drains (event : Event Ephemeral) : Prop :=
  event = .udp .changed ∨ event = .udp .drain ∨ event = .udp .drained

end Relay

end

namespace HeartbeatServer

variable {Key Transcript Ephemeral δ : Type} (A : Aead Key)
  (noise : NoiseIk Key Transcript Ephemeral) (dispatch : Dispatcher δ)
  (hash : Bytes → Bytes) (server : HeartbeatServer Key δ)

theorem opens_of_acceptsHeartbeat {bytes : Bytes} {io : Io Ephemeral}
    (h : server.acceptsHeartbeat A bytes io = true) :
    ∃ view live counter plaintext, parse bytes = .ok view ∧ server.session = some live ∧
      live.state.session.Opens A .heartbeat view counter plaintext := by
  unfold acceptsHeartbeat at h
  split at h
  next view live hparse hsession =>
    rw [Bool.and_eq_true] at h
    have hok : (live.state.session.decodeHeartbeat A view).2.isOk = true := by
      cases hdecode : live.state.session.decodeHeartbeat A view with
      | mk session verdict =>
          rw [hdecode] at h
          cases verdict with
          | error e => exact absurd h.2 (by simp)
          | ok decoded => rfl
    obtain ⟨counter, plaintext, hopens⟩ := Session.opens_of_decodeWith A hok
    exact ⟨view, live, counter, plaintext, hparse, hsession, hopens⟩
  next => cases h

theorem peerState_handleHandshake1 (view : PacketView) (io : Io Ephemeral) :
    (server.handleHandshake1 noise view io).peerState = server.peerState := by
  rcases handleHandshake1_cases noise server view io with ⟨-, half, session, -, -, hnew⟩ | ⟨-, h, -⟩
  · rw [hnew]
  · exact h

theorem peerState_handleControl (view : PacketView) :
    (server.handleControl A dispatch view).peerState = server.peerState := by
  unfold handleControl
  cases server.session with
  | none => rfl
  | some live => rfl

theorem peerState_handleOutbound (envelope : ControlEnvelope) :
    (server.handleOutbound A envelope).peerState = server.peerState := by
  unfold handleOutbound
  cases server.session with
  | none => rfl
  | some live => rfl

theorem peerState_approve (query : Text) (configWritten : Bool) :
    (server.approve hash query configWritten).peerState.currentIp = server.peerState.currentIp ∧
      (server.approve hash query configWritten).peerState.notified =
        server.peerState.notified := by
  unfold approve
  rcases approveDownstream_cases hash server.peerState server.pendingStore query configWritten
    with ⟨key, store, fingerprint, h⟩ | ⟨store, code, outcome, h⟩
  · rw [h]
    exact ⟨rfl, rfl⟩
  · rw [h]
    exact ⟨rfl, rfl⟩

theorem isOk_encode_iff_emit (session : Session Key) (payload : Payload) :
    (session.encode A payload).2.isOk = true ↔ (session.emit A payload).2 ≠ [] := by
  unfold Session.emit
  cases session.encode A payload with
  | mk session verdict =>
      cases verdict with
      | error e => simp [Except.isOk, Except.toBool]
      | ok pair => simp [Except.isOk, Except.toBool]

theorem peerState_handleHeartbeat {bytes : Bytes} {view : PacketView} (io : Io Ephemeral)
    (hparse : parse bytes = .ok view) (htype : view.packetType = .heartbeat) :
    (server.handleHeartbeat A view io).peerState =
      if server.acceptsHeartbeat A bytes io then
        (server.peerState.recordHeartbeat io.src io.now).1
      else server.peerState := by
  unfold handleHeartbeat acceptsHeartbeat
  rw [hparse]
  cases hsession : server.session with
  | none => rfl
  | some live =>
      simp only [htype, decide_true, Bool.true_and, SessionState.handleHeartbeat]
      cases live.state.session.decodeHeartbeat A view with
      | mk session verdict =>
          cases verdict with
          | error e => rfl
          | ok decoded =>
              have hencode :=
                isOk_encode_iff_emit A session (.heartbeatAck decoded.counter io.now)
              cases hemit : session.emit A (.heartbeatAck decoded.counter io.now) with
              | mk sealed sent =>
                  rw [hemit] at hencode
                  cases sent with
                  | nil =>
                      have hfailed : (session.encode A
                          (.heartbeatAck decoded.counter io.now)).2.isOk = false := by
                        simpa using hencode
                      simp [hfailed, hemit]
                  | cons packet rest =>
                      have hok : (session.encode A
                          (.heartbeatAck decoded.counter io.now)).2.isOk = true := by
                        simpa using hencode
                      cases hsent : io.sent with
                      | false => simp [hok, hemit]
                      | true => simp [hok, hemit]

theorem peerState_handlePacket (bytes : Bytes) (io : Io Ephemeral) :
    (server.handlePacket A noise dispatch bytes io).peerState =
      if server.acceptsHeartbeat A bytes io then
        (server.peerState.recordHeartbeat io.src io.now).1
      else server.peerState := by
  have hother : ∀ view, parse bytes = .ok view → view.packetType ≠ .heartbeat →
      server.acceptsHeartbeat A bytes io = false := by
    intro view hparse htype
    unfold acceptsHeartbeat
    rw [hparse]
    cases server.session with
    | none => rfl
    | some live => simp [htype]
  unfold handlePacket
  cases hparse : parse bytes with
  | error e => simp [acceptsHeartbeat, hparse]
  | ok view =>
      cases htype : view.packetType with
      | heartbeat =>
          simp only [htype]
          exact server.peerState_handleHeartbeat A io hparse htype
      | handshake1 =>
          rw [hother view hparse (by simp [htype])]
          simp only [htype]
          exact server.peerState_handleHandshake1 noise view io
      | control =>
          rw [hother view hparse (by simp [htype])]
          simp only [htype]
          exact server.peerState_handleControl A dispatch view
      | rekey => rw [hother view hparse (by simp [htype])]; simp [htype]
      | controlAck => rw [hother view hparse (by simp [htype])]; simp [htype]
      | handshake2 => rw [hother view hparse (by simp [htype])]; simp [htype]
      | heartbeatAck => rw [hother view hparse (by simp [htype])]; simp [htype]

end HeartbeatServer

namespace Relay

variable {Key Transcript Ephemeral δ : Type} {A : Aead Key}
  {noise : NoiseIk Key Transcript Ephemeral} {dispatch : Dispatcher δ}
  {hash : Bytes → Bytes} {rule : UdpRule} {relay next : Relay Key δ} {event : Event Ephemeral}

def seen (relay : Relay Key δ) : Option IpAddr × Nat :=
  (relay.server.peerState.currentIp, relay.server.peerState.notified)

theorem seen_step (htracked : relay.server.peerState.currentIp = relay.lastIp)
    (hstep : relay.step A noise dispatch hash rule event = some next) :
    next.server.peerState.currentIp = next.lastIp ∧
    ((∃ bytes io, event = .packet bytes io ∧ relay.server.acceptsHeartbeat A bytes io = true ∧
        relay.lastIp ≠ some io.src.ip ∧
        next.seen = (some io.src.ip, relay.server.peerState.notified + 1)) ∨
      (¬ NewAddress A relay event ∧ next.seen = relay.seen)) := by
  cases event with
  | packet bytes io =>
      cases hstep
      have hpeer := relay.server.peerState_handlePacket A noise dispatch bytes io
      cases haccepts : relay.server.acceptsHeartbeat A bytes io with
      | false =>
          rw [haccepts] at hpeer
          refine ⟨?_, .inr ⟨?_, ?_⟩⟩
          · simp only [lastIp, hpeer]
            exact htracked
          · rintro ⟨bytes', io', heq, haccepts', -⟩
            obtain ⟨rfl, rfl⟩ := Event.packet.inj heq
            rw [haccepts] at haccepts'
            cases haccepts'
          · simp only [seen, hpeer]
            rfl
      | true =>
          rw [haccepts, if_pos rfl] at hpeer
          rcases relay.server.peerState.recordHeartbeat_cases io.src io.now with
            ⟨hsame, heq⟩ | ⟨hother, heq⟩
          · refine ⟨?_, .inr ⟨?_, ?_⟩⟩
            · simp only [lastIp, hpeer, heq]
              simpa using hsame
            · rintro ⟨bytes', io', hpacket, -, hnew⟩
              obtain ⟨rfl, rfl⟩ := Event.packet.inj hpacket
              exact hnew (htracked ▸ hsame)
            · simp only [seen, hpeer, heq]
          · refine ⟨?_, .inl ⟨bytes, io, rfl, haccepts, htracked ▸ hother, ?_⟩⟩
            · simp only [lastIp, hpeer, heq]
              simp
            · simp only [seen, hpeer, heq]
  | outbound envelope =>
      cases hstep
      have hpeer := relay.server.peerState_handleOutbound A envelope
      refine ⟨by rw [hpeer]; exact htracked, .inr ⟨?_, by simp only [seen, hpeer]⟩⟩
      rintro ⟨_, _, heq, -⟩
      cases heq
  | approve query configWritten =>
      cases hstep
      obtain ⟨hip, hnotified⟩ := relay.server.peerState_approve hash query configWritten
      refine ⟨by rw [hip]; exact htracked, .inr ⟨?_, by simp only [seen, hip, hnotified]⟩⟩
      rintro ⟨_, _, heq, -⟩
      cases heq
  | udp event =>
      obtain ⟨proxy, -, rfl⟩ := Option.map_eq_some_iff.1 hstep
      refine ⟨htracked, .inr ⟨?_, rfl⟩⟩
      rintro ⟨_, _, heq, -⟩
      cases heq

theorem quiet_step (hquiet : Quiet relay) (hseen : next.seen = relay.seen)
    (hstep : relay.step A noise dispatch hash rule event = some next) :
    Quiet next ∧ ¬ Drains event := by
  have hstill : next.proxy.watcher = relay.proxy.watcher → Quiet next := by
    intro hwatcher
    unfold Quiet
    rw [hwatcher, show next.server.peerState.notified = relay.server.peerState.notified from
      congrArg Prod.snd hseen]
    exact hquiet
  cases event with
  | packet bytes io =>
      cases hstep
      exact ⟨hstill rfl, by simp [Drains]⟩
  | outbound envelope =>
      cases hstep
      exact ⟨hstill rfl, by simp [Drains]⟩
  | approve query configWritten =>
      cases hstep
      exact ⟨hstill rfl, by simp [Drains]⟩
  | udp event =>
      obtain ⟨proxy, hproxy, rfl⟩ := Option.map_eq_some_iff.1 hstep
      rcases UdpProxy.watcher_step hproxy with ⟨rfl, -, hnext⟩ | ⟨rfl, seen, hwaiting, hseen⟩ |
        ⟨-, seen, place, drained, hdraining⟩ | ⟨hchanged, hdrain, hdrained, hsame⟩
      · exact ⟨.inr hnext, by simp [Drains]⟩
      · rcases hquiet with h | h
        · rw [h] at hwaiting
          cases hwaiting
        · rw [h] at hwaiting
          exact absurd (Proxy.Watcher.waiting.inj hwaiting).symm hseen
      · rcases hquiet with h | h
        · rw [h] at hdraining
          cases hdraining
        · rw [h] at hdraining
          cases hdraining
      · exact ⟨hstill hsame, by simp [Drains, hchanged, hdrain, hdrained]⟩

theorem quiet_run (htracked : relay.server.peerState.currentIp = relay.lastIp)
    (hquiet : Quiet relay) {events : List (Event Ephemeral)} {reached : Relay Key δ}
    (hold : Along (step A noise dispatch hash rule) (fun relay event => ¬ NewAddress A relay event)
      relay events)
    (hrun : run (step A noise dispatch hash rule) relay events = some reached) :
    Quiet reached ∧
      Along (step A noise dispatch hash rule) (fun _ event => ¬ Drains event) relay events := by
  induction events generalizing relay with
  | nil =>
      cases hrun
      exact ⟨hquiet, trivial⟩
  | cons event events ih =>
      obtain ⟨next, hstep, hrest⟩ := Option.bind_eq_some_iff.1 hrun
      obtain ⟨hnext, ⟨bytes, io, hpacket, haccepts, hnew, -⟩ | ⟨-, hseen⟩⟩ :=
        seen_step htracked hstep
      · exact absurd ⟨bytes, io, hpacket, haccepts, hnew⟩ hold.1
      · obtain ⟨hquiet', hevent⟩ := quiet_step hquiet hseen hstep
        obtain ⟨hreached, halong⟩ := ih hnext hquiet' (hold.2 next hstep) hrest
        exact ⟨hreached, along_cons _ hevent hstep halong⟩

/--
In every run the address is that of the last accepted heartbeat.  It changes,
and its watchers are woken, exactly at the accepted heartbeats from a new
address, each of them authenticated and fresh; as long as there is none, a
watcher that has nothing to answer begins no drain.
-/
theorem heartbeat_invariance {peerStaticKey : Option PubKey} {acceptor : δ} {workers : Nat}
    {events : List (Event Ephemeral)}
    (hrun : run (step A noise dispatch hash rule) (start peerStaticKey acceptor workers) events =
      some relay) :
    relay.server.peerState.currentIp = relay.lastIp ∧
    (∀ event next, relay.step A noise dispatch hash rule event = some next →
      (next.server.peerState.currentIp ≠ relay.server.peerState.currentIp ↔
        NewAddress A relay event) ∧
      (next.server.peerState.notified ≠ relay.server.peerState.notified ↔
        NewAddress A relay event)) ∧
    (∀ bytes (io : Io Ephemeral), relay.server.acceptsHeartbeat A bytes io = true →
      ∃ view live counter plaintext, parse bytes = .ok view ∧
        relay.server.session = some live ∧
        live.state.session.Opens A .heartbeat view counter plaintext) ∧
    (Quiet relay → ∀ (later : List (Event Ephemeral)) (reached : Relay Key δ),
      Along (step A noise dispatch hash rule) (fun relay event => ¬ NewAddress A relay event)
        relay later →
      run (step A noise dispatch hash rule) relay later = some reached →
      Quiet reached ∧
        Along (step A noise dispatch hash rule) (fun _ event => ¬ Drains event) relay later) := by
  have htracked : relay.server.peerState.currentIp = relay.lastIp :=
    run_invariant (step A noise dispatch hash rule)
      (P := fun relay => relay.server.peerState.currentIp = relay.lastIp)
      (fun _ _ _ h hstep => (seen_step h hstep).1) rfl hrun
  refine ⟨htracked, ?_, ?_, ?_⟩
  · intro event next hstep
    obtain ⟨-, ⟨bytes, io, hpacket, haccepts, hnew, hseen⟩ | ⟨hold, hseen⟩⟩ :=
      seen_step htracked hstep
    · have haddress : NewAddress A relay event := ⟨bytes, io, hpacket, haccepts, hnew⟩
      obtain ⟨hip, hnotified⟩ := Prod.mk.inj hseen
      rw [hip, hnotified, htracked]
      exact ⟨iff_of_true (Ne.symm hnew) haddress, iff_of_true (Nat.succ_ne_self _) haddress⟩
    · obtain ⟨hip, hnotified⟩ := Prod.mk.inj hseen
      exact ⟨iff_of_false (not_not.2 hip) hold, iff_of_false (not_not.2 hnotified) hold⟩
  · exact fun bytes io haccepts => relay.server.opens_of_acceptsHeartbeat A haccepts
  · exact fun hquiet later reached hold hlater => quiet_run htracked hquiet hold hlater

def toyStep : Relay UInt64 Unit → Event UInt32 → Option (Relay UInt64 Unit) :=
  step Aead.transparent NoiseIk.transparent Network.toyDispatch Network.toyHash Proxy.gameRule

theorem heartbeat_invariance_toy :
    ∃ relay, run toyStep (start (some (Network.toyKey 1)) () 1)
        [.packet (Network.toyHandshake1 1) (Network.toyIo 3),
          .packet (Network.toyHeartbeat 3 0) (Network.toyIo 4)] = some relay ∧
      relay.lastIp = some (.v4 1) ∧ relay.server.peerState.currentIp = some (.v4 1) ∧
      relay.server.peerState.notified = 1 := by
  obtain ⟨relay, hrun, h⟩ := Option.map_eq_some_iff.1
    (show (run toyStep (start (some (Network.toyKey 1)) () 1)
        [.packet (Network.toyHandshake1 1) (Network.toyIo 3),
          .packet (Network.toyHeartbeat 3 0) (Network.toyIo 4)]).map
      (fun relay => (relay.lastIp, relay.server.peerState.notified)) = some (some (.v4 1), 1)
      from rfl)
  obtain ⟨hlast, hnotified⟩ := Prod.mk.inj h
  exact ⟨relay, hrun, hlast, (heartbeat_invariance hrun).1.trans hlast, hnotified⟩

end Relay

end Yggdrasil.Heartbeat
