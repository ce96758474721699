import Yggdrasil.Foundation.Run
import Yggdrasil.Heartbeat.Enrolment
import Yggdrasil.Heartbeat.SessionState

/-!
# The heartbeat server

The server owns one session.  A `Handshake1` whose key is the enrolled one
replaces it; a `Handshake1` of another key is staged while nobody is enrolled
and dropped otherwise.  The enrolled key is consulted at no other packet.

The network records every datagram and may deliver any recorded one any number
of times.
-/

namespace Yggdrasil.Heartbeat

open Foundation Ratatoskr Chain

structure Live (Key : Type) where
  state : SessionState Key
  remote : PubKey
  enrolledAt : Option PubKey
  approvedSince : Option PubKey

structure HeartbeatServer (Key δ : Type) where
  peerState : PeerState
  pendingStore : PendingPeerStore
  acceptor : δ
  session : Option (Live Key)

structure Io (Ephemeral : Type) where
  src : SocketAddr
  now : UInt64
  sent : Bool
  /-- The ephemeral a completed handshake draws. -/
  ephemeral : Ephemeral

namespace HeartbeatServer

variable {Key Transcript Ephemeral δ : Type} (A : Aead Key)
  (noise : NoiseIk Key Transcript Ephemeral) (dispatch : Dispatcher δ)
  (hash : Bytes → Bytes)

def start (peerState : PeerState) (acceptor : δ) : HeartbeatServer Key δ :=
  ⟨peerState, .new, acceptor, none⟩

def handleHandshake1 (server : HeartbeatServer Key δ) (view : PacketView)
    (io : Io Ephemeral) : HeartbeatServer Key δ :=
  match noise.processHandshake1 view with
  | .error _ => server
  | .ok half =>
      if some half.remotePublic ≠ server.peerState.peerStaticKey then
        if server.peerState.isPeerEnrolled then server
        else
          { server with
            pendingStore := server.pendingStore.recordCandidate half.remotePublic io.now }
      else
        match noise.complete half io.ephemeral with
        | .error _ => server
        | .ok (session, _) =>
            if !io.sent then server
            else
              { server with
                session := some ⟨.new session io.src, half.remotePublic,
                  server.peerState.peerStaticKey, none⟩ }

/-- The peer state is committed only once the ack is on the wire. -/
def handleHeartbeat (server : HeartbeatServer Key δ) (view : PacketView)
    (io : Io Ephemeral) : HeartbeatServer Key δ :=
  match server.session with
  | none => server
  | some live =>
      match live.state.handleHeartbeat A view io.now with
      | (state, some (_, _ :: _)) =>
          if !io.sent then { server with session := some { live with state } }
          else
            { server with
              peerState := (server.peerState.recordHeartbeat io.src io.now).1
              session := some { live with state := { state with lastPeerAddr := io.src } } }
      | (state, _) => { server with session := some { live with state } }

def handleControl (server : HeartbeatServer Key δ) (view : PacketView) :
    HeartbeatServer Key δ :=
  match server.session with
  | none => server
  | some live =>
      let (acceptor, state, _) := live.state.handleControl A dispatch server.acceptor view
      { server with acceptor, session := some { live with state } }

def handlePacket (server : HeartbeatServer Key δ) (bytes : Bytes) (io : Io Ephemeral) :
    HeartbeatServer Key δ :=
  match parse bytes with
  | .error _ => server
  | .ok view =>
      match view.packetType with
      | .handshake1 => server.handleHandshake1 noise view io
      | .heartbeat => server.handleHeartbeat A view io
      | .control => server.handleControl A dispatch view
      | .rekey | .controlAck | .handshake2 | .heartbeatAck => server

def handleOutbound (server : HeartbeatServer Key δ) (envelope : ControlEnvelope) :
    HeartbeatServer Key δ :=
  match server.session with
  | none => server
  | some live =>
      { server with
        session := some { live with state := (live.state.handleOutbound A envelope).1 } }

def approve (server : HeartbeatServer Key δ) (query : Text) (configWritten : Bool) :
    HeartbeatServer Key δ :=
  match approveDownstream hash server.peerState server.pendingStore query configWritten with
  | (peerState, pendingStore, .downstreamApproved _) =>
      { server with
        peerState
        pendingStore
        session := server.session.map
          (fun live => { live with approvedSince := peerState.peerStaticKey }) }
  | (peerState, pendingStore, .error _ _) => { server with peerState, pendingStore }

def accepts (server : HeartbeatServer Key δ) (bytes : Bytes) : Bool :=
  match parse bytes, server.session with
  | .ok view, some live =>
      match view.packetType with
      | .heartbeat => (live.state.session.decodeHeartbeat A view).2.isOk
      | .control => (live.state.session.decodeControl A view).2.isOk
      | _ => false
  | _, _ => false

theorem opens_of_accepts {server : HeartbeatServer Key δ} {bytes : Bytes}
    (h : server.accepts A bytes = true) :
    ∃ view live expected counter plaintext, parse bytes = .ok view ∧
      server.session = some live ∧
      live.state.session.Opens A expected view counter plaintext := by
  unfold accepts at h
  split at h
  · rename_i view live hparse hsession
    split at h
    · obtain ⟨counter, plaintext, hopens⟩ := Session.opens_of_decodeWith A h
      exact ⟨view, live, .heartbeat, counter, plaintext, hparse, hsession, hopens⟩
    · obtain ⟨counter, plaintext, hopens⟩ := Session.opens_of_decodeWith A h
      exact ⟨view, live, .control, counter, plaintext, hparse, hsession, hopens⟩
    · cases h
  · cases h

structure SameSession (live live' : Live Key) : Prop where
  recvKey_eq : live'.state.session.transport.recvKey = live.state.session.transport.recvKey
  remote_eq : live'.remote = live.remote
  enrolledAt_eq : live'.enrolledAt = live.enrolledAt
  approvedSince_eq : live'.approvedSince = live.approvedSince

structure Kept (server server' : HeartbeatServer Key δ) : Prop where
  key_eq : server'.peerState.peerStaticKey = server.peerState.peerStaticKey
  session_same : ∀ live', server'.session = some live' →
    ∃ live, server.session = some live ∧ SameSession live live'

theorem Kept.refl (server : HeartbeatServer Key δ) : Kept server server :=
  ⟨rfl, fun live h => ⟨live, h, rfl, rfl, rfl, rfl⟩⟩

theorem Kept.of_session {server server' : HeartbeatServer Key δ} {live live' : Live Key}
    (hsession : server.session = some live)
    (hkey : server'.peerState.peerStaticKey = server.peerState.peerStaticKey)
    (hsession' : server'.session = some live') (hsame : SameSession live live') :
    Kept server server' := by
  refine ⟨hkey, fun other hother => ⟨live, hsession, ?_⟩⟩
  rw [hsession'] at hother
  exact Option.some.inj hother ▸ hsame

def Answers (server : HeartbeatServer Key δ) (view : PacketView) (io : Io Ephemeral) : Prop :=
  ∃ half, noise.processHandshake1 view = .ok half ∧
    server.peerState.peerStaticKey = some half.remotePublic ∧
    (noise.complete half io.ephemeral).isOk = true ∧ io.sent = true

def Established (server : HeartbeatServer Key δ) (io : Io Ephemeral)
    (server' : HeartbeatServer Key δ) : Prop :=
  ∃ (half : HalfHandshake Transcript) (session : Session Key),
    server.peerState.peerStaticKey = some half.remotePublic ∧
    session.transport.recvKey = noise.recvKey half.inner io.ephemeral ∧
    server' = { server with
      session := some ⟨.new session io.src, half.remotePublic,
        server.peerState.peerStaticKey, none⟩ }

theorem handleHandshake1_cases (server : HeartbeatServer Key δ) (view : PacketView)
    (io : Io Ephemeral) :
    (Answers noise server view io ∧
      Established noise server io (server.handleHandshake1 noise view io)) ∨
    (¬ Answers noise server view io ∧
      (server.handleHandshake1 noise view io).peerState = server.peerState ∧
      (server.handleHandshake1 noise view io).session = server.session) := by
  unfold handleHandshake1 Answers
  cases hprocess : noise.processHandshake1 view with
  | error e => exact .inr ⟨by simp, rfl, rfl⟩
  | ok half =>
      by_cases hkey : some half.remotePublic = server.peerState.peerStaticKey
      · simp only [ne_eq, hkey, not_true_eq_false, if_false]
        cases hcomplete : noise.complete half io.ephemeral with
        | error e =>
            refine .inr ⟨?_, rfl, rfl⟩
            rintro ⟨other, hother, -, hok, -⟩
            cases hother
            rw [hcomplete] at hok
            cases hok
        | ok pair =>
            obtain ⟨session, reply⟩ := pair
            cases hsent : io.sent with
            | false =>
                refine .inr ⟨?_, rfl, rfl⟩
                rintro ⟨-, -, -, -, hsent'⟩
                cases hsent'
            | true =>
                refine .inl ⟨⟨half, rfl, hkey.symm, by rw [hcomplete]; rfl, rfl⟩, ?_⟩
                exact ⟨half, session, hkey.symm, noise.recvKey_of_complete hcomplete, rfl⟩
      · refine .inr ⟨?_, ?_⟩
        · rintro ⟨other, hother, hsame, -, -⟩
          cases hother
          exact hkey hsame.symm
        · simp only [ne_eq, hkey, not_false_eq_true, if_true]
          split_ifs <;> exact ⟨rfl, rfl⟩

theorem handleHeartbeat_kept (server : HeartbeatServer Key δ) (view : PacketView)
    (io : Io Ephemeral) : Kept server (server.handleHeartbeat A view io) := by
  unfold handleHeartbeat
  cases hsession : server.session with
  | none => exact .refl server
  | some live =>
      have hkey := live.state.recvKey_handleHeartbeat A view io.now
      dsimp only
      split
      · rename_i state _ _ _ hhandled
        rw [hhandled] at hkey
        split_ifs
        · exact .of_session hsession rfl rfl ⟨hkey, rfl, rfl, rfl⟩
        · exact .of_session hsession (PeerState.peerStaticKey_recordHeartbeat _ _ _) rfl
            ⟨hkey, rfl, rfl, rfl⟩
      · rename_i state _ _ hhandled
        rw [hhandled] at hkey
        exact .of_session hsession rfl rfl ⟨hkey, rfl, rfl, rfl⟩

theorem handleControl_kept (server : HeartbeatServer Key δ) (view : PacketView) :
    Kept server (server.handleControl A dispatch view) := by
  unfold handleControl
  cases hsession : server.session with
  | none => exact .refl server
  | some live =>
      exact .of_session hsession rfl rfl
        ⟨live.state.recvKey_handleControl A dispatch server.acceptor view, rfl, rfl, rfl⟩

theorem handleOutbound_kept (server : HeartbeatServer Key δ) (envelope : ControlEnvelope) :
    Kept server (server.handleOutbound A envelope) := by
  unfold handleOutbound
  cases hsession : server.session with
  | none => exact .refl server
  | some live =>
      exact .of_session hsession rfl rfl
        ⟨live.state.recvKey_handleOutbound A envelope, rfl, rfl, rfl⟩

theorem handlePacket_cases (server : HeartbeatServer Key δ) (bytes : Bytes)
    (io : Io Ephemeral) :
    Established noise server io (server.handlePacket A noise dispatch bytes io) ∨
      Kept server (server.handlePacket A noise dispatch bytes io) := by
  unfold handlePacket
  split
  · exact .inr (.refl server)
  · split
    · rename_i view _ _ _
      rcases handleHandshake1_cases noise server view io with ⟨-, h⟩ | ⟨-, hpeer, hsession⟩
      · exact .inl h
      · refine .inr ⟨by rw [hpeer], fun live' h => ⟨live', ?_, rfl, rfl, rfl, rfl⟩⟩
        rw [← hsession, h]
    · exact .inr (server.handleHeartbeat_kept A _ io)
    · exact .inr (server.handleControl_kept A dispatch _)
    all_goals exact .inr (.refl server)

theorem approve_cases (server : HeartbeatServer Key δ) (query : Text) (configWritten : Bool) :
    (∃ key, (server.approve hash query configWritten).peerState.peerStaticKey = some key ∧
      (server.approve hash query configWritten).session =
        server.session.map (fun live => { live with approvedSince := some key })) ∨
    Kept server (server.approve hash query configWritten) := by
  unfold approve
  rcases approveDownstream_cases hash server.peerState server.pendingStore query configWritten
    with ⟨key, store, fingerprint, h⟩ | ⟨store, code, outcome, h⟩
  · rw [h]
    exact .inl ⟨key, rfl, rfl⟩
  · rw [h]
    exact .inr ⟨rfl, (Kept.refl server).session_same⟩

end HeartbeatServer

/-! ## Runs -/

structure Network (Key δ Ephemeral : Type) where
  server : HeartbeatServer Key δ
  recorded : List Bytes
  drawn : List Ephemeral

namespace Network

open HeartbeatServer

variable {Key Transcript Ephemeral δ : Type} (A : Aead Key)
  (noise : NoiseIk Key Transcript Ephemeral) (dispatch : Dispatcher δ)
  (hash : Bytes → Bytes)

inductive Event (Ephemeral : Type) where
  | record (bytes : Bytes)
  | deliver (index : Nat) (io : Io Ephemeral)
  | outbound (envelope : ControlEnvelope)
  | approve (query : Text) (configWritten : Bool)

def start (peerState : PeerState) (acceptor : δ) : Network Key δ Ephemeral :=
  ⟨.start peerState acceptor, [], []⟩

def step (network : Network Key δ Ephemeral) :
    Event Ephemeral → Option (Network Key δ Ephemeral)
  | .record bytes => some { network with recorded := bytes :: network.recorded }
  | .deliver index io => do
      let bytes ← network.recorded[index]?
      some { network with
        server := network.server.handlePacket A noise dispatch bytes io
        drawn := io.ephemeral :: network.drawn }
  | .outbound envelope =>
      some { network with server := network.server.handleOutbound A envelope }
  | .approve query configWritten =>
      some { network with server := network.server.approve hash query configWritten }

/-- The enrolled key is the one the session's handshake offered, until another is approved. -/
structure KeyTracked (server : HeartbeatServer Key δ) : Prop where
  enrolledAt_eq : ∀ live, server.session = some live → live.enrolledAt = some live.remote
  current_eq : ∀ live, server.session = some live →
    server.peerState.peerStaticKey = live.approvedSince.or (some live.remote)

variable {A noise dispatch hash}

variable {server server' : HeartbeatServer Key δ} {io : Io Ephemeral}
  {network next : Network Key δ Ephemeral}

theorem KeyTracked.kept (h : KeyTracked server)
    (hkept : Kept server server') : KeyTracked server' := by
  constructor
  · intro live' hlive'
    obtain ⟨live, hlive, hsame⟩ := hkept.session_same live' hlive'
    rw [hsame.enrolledAt_eq, hsame.remote_eq]
    exact h.enrolledAt_eq live hlive
  · intro live' hlive'
    obtain ⟨live, hlive, hsame⟩ := hkept.session_same live' hlive'
    rw [hkept.key_eq, hsame.approvedSince_eq, hsame.remote_eq]
    exact h.current_eq live hlive

theorem KeyTracked.established (h : Established noise server io server') : KeyTracked server' := by
  obtain ⟨half, session, hkey, -, rfl⟩ := h
  constructor
  · intro live hlive
    cases hlive
    exact hkey
  · intro live hlive
    cases hlive
    exact hkey

theorem KeyTracked.approve (h : KeyTracked server) (query : Text) (configWritten : Bool) :
    KeyTracked (server.approve hash query configWritten) := by
  rcases server.approve_cases hash query configWritten with ⟨key, hkey, hsession⟩ | hkept
  · constructor
    · intro live' hlive'
      rw [hsession] at hlive'
      obtain ⟨live, hlive, rfl⟩ := Option.map_eq_some_iff.1 hlive'
      exact h.enrolledAt_eq live hlive
    · intro live' hlive'
      rw [hsession] at hlive'
      obtain ⟨live, hlive, rfl⟩ := Option.map_eq_some_iff.1 hlive'
      exact hkey
  · exact h.kept hkept

theorem keyTracked_start (peerState : PeerState) (acceptor : δ) :
    KeyTracked (HeartbeatServer.start peerState acceptor : HeartbeatServer Key δ) := by
  constructor
  · intro live h
    cases h
  · intro live h
    cases h

theorem keyTracked_step {event : Event Ephemeral} (h : KeyTracked network.server)
    (hstep : step A noise dispatch hash network event = some next) : KeyTracked next.server := by
  cases event with
  | record bytes =>
      cases hstep
      exact h
  | deliver index io =>
      obtain ⟨bytes, -, hnext⟩ := Option.bind_eq_some_iff.1 hstep
      cases hnext
      rcases network.server.handlePacket_cases A noise dispatch bytes io with hnew | hkept
      · exact .established hnew
      · exact h.kept hkept
  | outbound envelope =>
      cases hstep
      exact h.kept (network.server.handleOutbound_kept A envelope)
  | approve query configWritten =>
      cases hstep
      exact h.approve query configWritten

/--
In every run, a packet is accepted only in a session whose handshake offered
the key enrolled at that moment; that key is still the enrolled one unless
another was approved since, and then the enrolled key is the approved one.
-/
theorem accepted_under_enrolled_key {peerState : PeerState} {acceptor : δ}
    {events : List (Event Ephemeral)} {network : Network Key δ Ephemeral}
    (hrun : run (step A noise dispatch hash) (start peerState acceptor) events = some network)
    {bytes : Bytes} (haccepts : network.server.accepts A bytes = true) :
    ∃ live, network.server.session = some live ∧ live.enrolledAt = some live.remote ∧
      network.server.peerState.peerStaticKey = live.approvedSince.or (some live.remote) ∧
      (network.server.peerState.peerStaticKey = some live.remote ↔
        ∀ key, live.approvedSince = some key → key = live.remote) := by
  have htracked := run_invariant (step A noise dispatch hash)
    (P := fun network => KeyTracked network.server)
    (fun _ _ _ h hstep => keyTracked_step h hstep) (keyTracked_start peerState acceptor) hrun
  obtain ⟨_, live, _, _, _, -, hlive, -⟩ := opens_of_accepts A haccepts
  have hcurrent := htracked.current_eq live hlive
  refine ⟨live, hlive, htracked.enrolledAt_eq live hlive, hcurrent, ?_⟩
  rw [hcurrent]
  cases live.approvedSince with
  | none => simp
  | some key => simp

section Toy

def toyKey (byte : UInt8) : PubKey := .x25519 ⟨List.replicate 32 byte, by simp [x25519PublicLen]⟩

def toyHash (bytes : Bytes) : Bytes := bytes.take 16

def toyHandshake1 (byte : UInt8) : Bytes :=
  writePreamble .handshake1 Session.toyId ++ List.replicate 32 byte

def toyHeartbeat (ephemeral : UInt32) (counter : UInt64) : Bytes :=
  Session.packetBytes Aead.transparent .heartbeat Session.toyId ephemeral.toUInt64 counter
    (encodeHeartbeatPlaintext 11 0)

def toyIo (ephemeral : UInt32) : Io UInt32 := ⟨⟨.v4 1, 9⟩, 12, true, ephemeral⟩

def toyDispatch : Dispatcher Unit := fun world _ _ => (world, .ok)

def toyStep : Network UInt64 Unit UInt32 → Event UInt32 → Option (Network UInt64 Unit UInt32) :=
  step Aead.transparent NoiseIk.transparent toyDispatch toyHash

def toyEnrolment : List (Event UInt32) :=
  [.record (toyHandshake1 1), .deliver 0 (toyIo 1), .record (toyHandshake1 2),
    .deliver 0 (toyIo 2), .approve "01010101".toList true, .deliver 1 (toyIo 3),
    .record (toyHeartbeat 3 0)]

end Toy

/-- The second candidate is approved too; the session of the first goes on. -/
theorem accepted_after_key_replaced :
    (run toyStep (start (.new none) ())
        (toyEnrolment ++ [.approve "02020202".toList true])).map
      (fun network => (network.server.accepts Aead.transparent (toyHeartbeat 3 0),
        network.server.session.map Live.remote, network.server.peerState.peerStaticKey)) =
    some (true, some (toyKey 1), some (toyKey 2)) := by
  rfl

theorem accepted_under_enrolled_key_toy :
    ∃ network, run toyStep (start (.new none) ()) toyEnrolment = some network ∧
      network.server.peerState.peerStaticKey = some (toyKey 1) ∧
      ∃ live, network.server.session = some live ∧ live.enrolledAt = some live.remote := by
  obtain ⟨network, hrun, h⟩ := Option.map_eq_some_iff.1
    (show (run toyStep (start (.new none) ()) toyEnrolment).map
      (fun network => (network.server.accepts Aead.transparent (toyHeartbeat 3 0),
        network.server.peerState.peerStaticKey)) = some (true, some (toyKey 1)) from rfl)
  obtain ⟨haccepts, hkey⟩ := Prod.mk.inj h
  obtain ⟨live, hlive, hthen, -⟩ := accepted_under_enrolled_key hrun haccepts
  exact ⟨network, hrun, hkey, live, hlive, hthen⟩

/-! ## Replayed handshakes -/

variable (A noise)

def OpensUnder (key : Key) (bytes : Bytes) : Prop :=
  ∃ view counter, parse bytes = .ok view ∧ view.counter = some counter ∧
    (A.decrypt key counter view.body).isSome

/-- Ephemerals do not repeat, and nobody seals under a key before its ephemeral is drawn. -/
def Ideal (network : Network Key δ Ephemeral) : Event Ephemeral → Prop
  | .record bytes => ∀ transcript, ∀ ephemeral ∉ network.drawn,
      ¬ OpensUnder A (noise.recvKey transcript ephemeral) bytes
  | .deliver _ io => io.ephemeral ∉ network.drawn
  | .outbound _ => True
  | .approve _ _ => True

structure Sealed (network : Network Key δ Ephemeral) : Prop where
  session_drawn : ∀ live, network.server.session = some live →
    ∃ transcript, ∃ ephemeral ∈ network.drawn,
      live.state.session.transport.recvKey = noise.recvKey transcript ephemeral
  recorded_closed : ∀ bytes ∈ network.recorded, ∀ transcript,
    ∀ ephemeral ∉ network.drawn, ¬ OpensUnder A (noise.recvKey transcript ephemeral) bytes

variable {A noise}

theorem Sealed.kept (h : Sealed A noise network) (hkept : Kept network.server server) :
    Sealed A noise { network with server } := by
  refine ⟨?_, h.recorded_closed⟩
  intro live' hlive'
  obtain ⟨live, hlive, hsame⟩ := hkept.session_same live' hlive'
  obtain ⟨transcript, ephemeral, hmem, hkey⟩ := h.session_drawn live hlive
  exact ⟨transcript, ephemeral, hmem, hsame.recvKey_eq.trans hkey⟩

theorem Sealed.draw (h : Sealed A noise network) (ephemeral : Ephemeral) :
    Sealed A noise { network with drawn := ephemeral :: network.drawn } := by
  constructor
  · intro live hlive
    obtain ⟨transcript, old, hmem, hkey⟩ := h.session_drawn live hlive
    exact ⟨transcript, old, List.mem_cons_of_mem _ hmem, hkey⟩
  · intro bytes hbytes transcript other hother
    apply h.recorded_closed bytes hbytes transcript other
    exact fun hmem => hother (List.mem_cons_of_mem _ hmem)

theorem Sealed.established (h : Sealed A noise network)
    (hnew : Established noise network.server io server) :
    Sealed A noise { network with server, drawn := io.ephemeral :: network.drawn } := by
  refine ⟨?_, (h.draw io.ephemeral).recorded_closed⟩
  obtain ⟨half, session, -, hkey, rfl⟩ := hnew
  intro live hlive
  cases hlive
  exact ⟨half.inner, io.ephemeral, List.mem_cons_self, hkey⟩

theorem sealed_step {event : Event Ephemeral} (h : Sealed A noise network)
    (hideal : Ideal A noise network event)
    (hstep : step A noise dispatch hash network event = some next) : Sealed A noise next := by
  cases event with
  | record bytes =>
      cases hstep
      refine ⟨h.session_drawn, ?_⟩
      intro old hold
      rcases List.mem_cons.1 hold with rfl | hrest
      · exact hideal
      · exact h.recorded_closed old hrest
  | deliver index io =>
      obtain ⟨bytes, -, hnext⟩ := Option.bind_eq_some_iff.1 hstep
      cases hnext
      rcases network.server.handlePacket_cases A noise dispatch bytes io with hnew | hkept
      · exact h.established hnew
      · exact (h.kept hkept).draw io.ephemeral
  | outbound envelope =>
      cases hstep
      exact h.kept (network.server.handleOutbound_kept A envelope)
  | approve query configWritten =>
      cases hstep
      rcases network.server.approve_cases hash query configWritten with ⟨key, -, hsession⟩ | hkept
      · refine ⟨?_, h.recorded_closed⟩
        intro live' hlive'
        rw [hsession] at hlive'
        obtain ⟨live, hlive, rfl⟩ := Option.map_eq_some_iff.1 hlive'
        exact h.session_drawn live hlive
      · exact h.kept hkept

theorem sealed_start (peerState : PeerState) (acceptor : δ) :
    Sealed A noise (start peerState acceptor) := by
  constructor
  · intro live h
    cases h
  · intro bytes hbytes
    cases hbytes

theorem Sealed.session_ne (h : Sealed A noise network) (hfresh : io.ephemeral ∉ network.drawn)
    (hnew : Established noise network.server io server) :
    server.session ≠ network.server.session := by
  obtain ⟨half, session, -, hkey, rfl⟩ := hnew
  intro hsame
  obtain ⟨transcript, ephemeral, hmem, hold⟩ := h.session_drawn _ hsame.symm
  obtain rfl := noise.recvKey_inj (hkey.symm.trans hold)
  exact hfresh hmem

theorem Sealed.rejects_recorded (h : Sealed A noise network) (hfresh : io.ephemeral ∉ network.drawn)
    (hnew : Established noise network.server io server) {old : Bytes}
    (hold : old ∈ network.recorded) : server.accepts A old = false := by
  by_contra haccepts
  rw [Bool.not_eq_false] at haccepts
  obtain ⟨view, live, _, counter, plaintext, hparse, hlive, hopens⟩ :=
    opens_of_accepts A haccepts
  obtain ⟨half, session, -, hkey, rfl⟩ := hnew
  cases hlive
  have hopen : A.decrypt session.transport.recvKey counter view.body = some plaintext :=
    hopens.opens
  apply h.recorded_closed old hold half.inner io.ephemeral hfresh
  refine ⟨view, counter, hparse, hopens.hasCounter, ?_⟩
  rw [← hkey, hopen]
  rfl

/--
In every run with ideal primitives, a `Handshake1` (a replayed one included)
changes the current session exactly when it offers the enrolled key and is
answered.  The session that replaces it accepts no datagram recorded so far.
-/
theorem handshake1_bounces_iff {peerState : PeerState} {acceptor : δ}
    {events : List (Event Ephemeral)} {network : Network Key δ Ephemeral}
    (hrun : run (step A noise dispatch hash) (start peerState acceptor) events = some network)
    (hideal : Along (step A noise dispatch hash) (Ideal A noise) (start peerState acceptor)
      events)
    {bytes : Bytes} {view : PacketView} (hparse : parse bytes = .ok view)
    (htype : view.packetType = .handshake1) {io : Io Ephemeral}
    (hfresh : io.ephemeral ∉ network.drawn) :
    ((network.server.handlePacket A noise dispatch bytes io).session ≠
        network.server.session ↔ Answers noise network.server view io) ∧
      (Answers noise network.server view io → ∀ old ∈ network.recorded,
        (network.server.handlePacket A noise dispatch bytes io).accepts A old = false) := by
  have hsealed := run_invariant_of_guard (step A noise dispatch hash)
    (P := Sealed A noise) (fun _ _ _ h hguard hstep => sealed_step h hguard hstep)
    (sealed_start peerState acceptor) hideal hrun
  have hhandle : network.server.handlePacket A noise dispatch bytes io =
      network.server.handleHandshake1 noise view io := by
    unfold HeartbeatServer.handlePacket
    rw [hparse]
    simp only [htype]
  rw [hhandle]
  rcases handleHandshake1_cases noise network.server view io with
    ⟨hanswers, hnew⟩ | ⟨hsilent, -, hsession⟩
  · exact ⟨⟨fun _ => hanswers, fun _ => hsealed.session_ne hfresh hnew⟩,
      fun _ old hold => hsealed.rejects_recorded hfresh hnew hold⟩
  · exact ⟨⟨fun hne => absurd hsession hne, fun h => absurd h hsilent⟩,
      fun h => absurd h hsilent⟩

def toySession : List (Event UInt32) :=
  [.record (toyHandshake1 1), .deliver 0 (toyIo 3), .record (toyHeartbeat 3 0)]

/-- The replayed handshake ends the session whose heartbeat was about to be accepted. -/
theorem replayed_handshake1_displaces_session :
    (run toyStep (start (.new (some (toyKey 1))) ()) toySession).map
      (fun network => (network.recorded[1]?,
        network.server.accepts Aead.transparent (toyHeartbeat 3 0),
        (network.server.handlePacket Aead.transparent NoiseIk.transparent toyDispatch
          (toyHandshake1 1) (toyIo 4)).accepts Aead.transparent (toyHeartbeat 3 0))) =
    some (some (toyHandshake1 1), true, false) := by
  rfl

theorem eq_of_opensUnder_toyHeartbeat {transcript : Bytes} {ephemeral other : UInt32}
    {counter : UInt64}
    (h : OpensUnder Aead.transparent (NoiseIk.transparent.recvKey transcript other)
      (toyHeartbeat ephemeral counter)) : other = ephemeral := by
  obtain ⟨view, nonce, hparse, -, hopens⟩ := h
  rw [toyHeartbeat, Session.parse_packetBytes Aead.transparent rfl] at hparse
  cases hparse
  obtain ⟨plaintext, hopen⟩ := Option.isSome_iff_exists.1 hopens
  have hsealed := Aead.transparent.eq_encrypt_of_decrypt hopen
  have hkey : NoiseIk.transparent.recvKey transcript ephemeral =
      NoiseIk.transparent.recvKey transcript other := (Aead.transparent.encrypt_inj hsealed).1
  exact (NoiseIk.transparent.recvKey_inj hkey).symm

theorem ideal_toySession :
    Along toyStep (Ideal Aead.transparent NoiseIk.transparent)
      (start (.new (some (toyKey 1))) ()) toySession := by
  apply along_cons _ _ rfl
  · apply along_cons _ _ rfl
    · apply along_cons _ _ rfl
      · trivial
      · intro transcript other hother hopens
        obtain rfl := eq_of_opensUnder_toyHeartbeat hopens
        exact hother (List.mem_singleton.2 rfl)
    · exact List.not_mem_nil
  · rintro transcript other - ⟨view, counter, hparse, hcounter, -⟩
    cases hparse
    cases hcounter

theorem handshake1_bounces_iff_toy :
    ∃ network, run toyStep (start (.new (some (toyKey 1))) ()) toySession = some network ∧
      (network.server.handlePacket Aead.transparent NoiseIk.transparent toyDispatch
        (toyHandshake1 1) (toyIo 4)).session ≠ network.server.session ∧
      (network.server.handlePacket Aead.transparent NoiseIk.transparent toyDispatch
        (toyHandshake1 1) (toyIo 4)).accepts Aead.transparent (toyHeartbeat 3 0) = false := by
  obtain ⟨network, hrun, h⟩ := Option.map_eq_some_iff.1
    (show (run toyStep (start (.new (some (toyKey 1))) ()) toySession).map
      (fun network => (network.recorded, network.drawn,
        network.server.peerState.peerStaticKey)) =
      some ([toyHeartbeat 3 0, toyHandshake1 1], [3], some (toyKey 1)) from rfl)
  obtain ⟨hrecorded, hrest⟩ := Prod.mk.inj h
  obtain ⟨hdrawn, hkey⟩ := Prod.mk.inj hrest
  have hparse : parse (toyHandshake1 1) =
      .ok ⟨.handshake1, Session.toyId, none, List.replicate 32 1⟩ := rfl
  have hfresh : (toyIo 4).ephemeral ∉ network.drawn := by
    rw [hdrawn]
    decide
  have hbounce := handshake1_bounces_iff hrun ideal_toySession hparse rfl hfresh
  have hanswers : Answers NoiseIk.transparent network.server
      ⟨.handshake1, Session.toyId, none, List.replicate 32 1⟩ (toyIo 4) :=
    ⟨⟨List.replicate 32 1, Session.toyId, toyKey 1⟩, rfl, hkey, rfl, rfl⟩
  refine ⟨network, hrun, hbounce.1.2 hanswers, hbounce.2 hanswers _ ?_⟩
  rw [hrecorded]
  exact List.mem_cons_self

end Network

end Yggdrasil.Heartbeat
