import Yggdrasil.Foundation.Keyed
import Yggdrasil.Foundation.Run
import Yggdrasil.Heartbeat.Enrolment
import Yggdrasil.Proxy.ProxyProtocol

/-!
# UDP flows and changes of the peer's address

A rule with a dynamic target has several workers, each with a table of flows of
its own, and one watcher that empties all tables when the peer's address
changes.  A flow is connected once, to the target that was read before its
socket was made; the drain walks the tables piece by piece and stops for nobody.

Everything here is a step of its own and may fall between any two others:
reading the target, inserting the flow, a heartbeat, one piece of a drain.
-/

namespace Yggdrasil.Proxy

open Foundation Ratatoskr
open Yggdrasil.Heartbeat (PeerState)

structure FlowEntry where
  target : SocketAddr
  lastSeenMs : Nat
  deriving DecidableEq, Repr

abbrev FlowTable := AList (fun _ : SocketAddr => FlowEntry)

/-- A datagram whose flow is being created; the target has been read already. -/
structure Creation where
  client : SocketAddr
  target : SocketAddr
  payload : Bytes
  deriving DecidableEq, Repr

structure UdpWorker where
  flows : FlowTable
  creating : Option Creation
  /-- The client a chain peer has named, and when. -/
  pendingRealClients : AList (fun _ : SocketAddr => SocketAddr × Nat)

structure UdpRule where
  port : UInt16
  localAddr : SocketAddr
  emitsProxyV2 : Bool
  expectInboundProxy : Bool
  maxFlows : Nat
  idleTimeoutMs : Nat
  /-- A table is locked in pieces: a sweep over it holds one piece at a time. -/
  pieces : Nat
  pieceOf : SocketAddr → Nat
  pieceOf_lt : ∀ client, pieceOf client < pieces

theorem UdpRule.pieces_pos (rule : UdpRule) : 0 < rule.pieces :=
  Nat.zero_lt_of_lt (rule.pieceOf_lt ⟨.v4 0, 0⟩)

def pendingProxyTtlMs : Nat := 5000

inductive Watcher where
  /-- Spawned, and has not looked at the address yet. -/
  | unborn
  | waiting (seen : Nat)
  /-- The place the drain has come to, and the flows of this table it has dropped. -/
  | draining (seen place drained : Nat)
  deriving DecidableEq, Repr

structure UdpProxy where
  workers : List UdpWorker
  flowCount : Nat
  watcher : Watcher
  /-- Flows of one table that the reaper found idle. -/
  victims : List (Nat × SocketAddr)
  forwarded : List (SocketAddr × Bytes)

inductive UdpEvent where
  | datagram (worker : Nat) (client : SocketAddr) (payload : Bytes) (nowMs : Nat)
  /-- The rest of `create_flow`; binding or connecting the socket may fail. -/
  | finishCreate (worker : Nat) (connects : Bool) (nowMs : Nat)
  | scan (worker : Nat) (nowMs : Nat)
  | reap
  /-- The task of a flow ends on an error of its socket. -/
  | upstreamFailed (worker : Nat) (client : SocketAddr)
  | firstBorrow
  | changed
  | drain
  | drained
  deriving DecidableEq, Repr

section

variable (rule : UdpRule)

def UdpRule.currentTarget (peer : PeerState) : Option SocketAddr :=
  peer.currentIp.map (fun ip => ⟨ip, rule.port⟩)

def UdpRule.place (worker : Nat) (client : SocketAddr) : Nat :=
  worker * rule.pieces + rule.pieceOf client

namespace UdpProxy

def start (workers : Nat) : UdpProxy :=
  ⟨List.replicate workers ⟨∅, none, ∅⟩, 0, .unborn, [], []⟩

variable (peer : PeerState) (proxy : UdpProxy)

def setWorker (i : Nat) (worker : UdpWorker) : UdpProxy :=
  { proxy with workers := proxy.workers.set i worker }

def forward (target : SocketAddr) (payload : Bytes) : UdpProxy :=
  { proxy with forwarded := proxy.forwarded ++ [(target, payload)] }

def handleInbound (i : Nat) (worker : UdpWorker) (client : SocketAddr) (payload : Bytes)
    (nowMs : Nat) : UdpProxy :=
  match worker.flows.lookup client with
  | some flow =>
      (proxy.setWorker i { worker with
        flows := worker.flows.insert client { flow with lastSeenMs := nowMs } }).forward
          flow.target payload
  | none =>
      match if rule.expectInboundProxy then decodeV2FromDatagram payload else none with
      | some endpoints =>
          proxy.setWorker i { worker with
            pendingRealClients :=
              worker.pendingRealClients.insert client (endpoints.client, nowMs) }
      | none =>
          match rule.currentTarget peer with
          | none => proxy
          | some target =>
              if rule.maxFlows ≤ proxy.flowCount then proxy
              else proxy.setWorker i { worker with creating := some ⟨client, target, payload⟩ }

def sendFirst (i : Nat) (worker : UdpWorker) (creation : Creation) (target : SocketAddr)
    (nowMs : Nat) : UdpProxy :=
  let outbound :=
    match worker.pendingRealClients.lookup creation.client with
    | some (real, stashedAt) => if nowMs - stashedAt ≤ pendingProxyTtlMs then real
        else creation.client
    | none => creation.client
  let proxy := proxy.setWorker i { worker with
    pendingRealClients := worker.pendingRealClients.erase creation.client }
  let proxy := if rule.emitsProxyV2 then proxy.forward target (encodeV2 outbound rule.localAddr)
    else proxy
  proxy.forward target creation.payload

/-- A flow that is there already wins; a table at its cap takes no other. -/
def createFlow (i : Nat) (worker : UdpWorker) (creation : Creation) (connects : Bool)
    (nowMs : Nat) : UdpProxy :=
  let worker := { worker with creating := none }
  if !connects then proxy.setWorker i worker
  else
    match worker.flows.lookup creation.client with
    | some existing => proxy.sendFirst rule i worker creation existing.target nowMs
    | none =>
        if rule.maxFlows ≤ proxy.flowCount then proxy.setWorker i worker
        else
          let worker := { worker with
            flows := worker.flows.insert creation.client ⟨creation.target, nowMs⟩ }
          { proxy with flowCount := proxy.flowCount + 1 }.sendFirst rule i worker creation
            creation.target nowMs

def removeFlow (i : Nat) (client : SocketAddr) : UdpProxy :=
  match proxy.workers[i]? with
  | none => proxy
  | some worker =>
      if client ∈ worker.flows then
        { proxy.setWorker i { worker with flows := worker.flows.erase client } with
          flowCount := proxy.flowCount - 1 }
      else proxy

def idleClients (flows : FlowTable) (nowMs : Nat) : List SocketAddr :=
  flows.keys.filter (fun client =>
    match flows.lookup client with
    | some flow => rule.idleTimeoutMs ≤ nowMs - flow.lastSeenMs
    | none => false)

/-- One piece of one table; the count is adjusted when the table is done. -/
def drainPiece (seen place drained : Nat) (worker : UdpWorker) : UdpProxy :=
  let here := worker.flows.keys.filter (fun client => rule.pieceOf client = place % rule.pieces)
  let drained := drained + here.length
  let proxy := proxy.setWorker (place / rule.pieces)
    { worker with flows := eraseAll here worker.flows }
  if (place + 1) % rule.pieces = 0 then
    { proxy with
      flowCount := proxy.flowCount - drained
      watcher := .draining seen (place + 1) 0 }
  else { proxy with watcher := .draining seen (place + 1) drained }

def step : UdpEvent → Option UdpProxy
  | .datagram i client payload nowMs =>
      match proxy.workers[i]? with
      | some worker =>
          -- a worker takes its datagrams one after another
          if worker.creating.isSome then none
          else some (proxy.handleInbound rule peer i worker client payload nowMs)
      | none => none
  | .finishCreate i connects nowMs =>
      match proxy.workers[i]? with
      | some worker =>
          worker.creating.map (fun creation =>
            proxy.createFlow rule i worker creation connects nowMs)
      | none => none
  | .scan i nowMs =>
      match proxy.workers[i]?, proxy.victims with
      | some worker, [] =>
          some { proxy with
            victims := (idleClients rule worker.flows nowMs).map (fun client => (i, client)) }
      | _, _ => none
  | .reap =>
      match proxy.victims with
      | [] => none
      | (i, client) :: rest => some { proxy.removeFlow i client with victims := rest }
  | .upstreamFailed i client => some (proxy.removeFlow i client)
  | .firstBorrow =>
      match proxy.watcher with
      | .unborn => some { proxy with watcher := .waiting peer.notified }
      | _ => none
  | .changed =>
      match proxy.watcher with
      | .waiting seen =>
          if seen = peer.notified then none
          else some { proxy with watcher := .draining peer.notified 0 0 }
      | _ => none
  | .drain =>
      match proxy.watcher with
      | .draining seen place drained =>
          (proxy.workers[place / rule.pieces]?).map (fun worker =>
            proxy.drainPiece rule seen place drained worker)
      | _ => none
  | .drained =>
      match proxy.watcher with
      | .draining seen place _ =>
          if place = proxy.workers.length * rule.pieces then
            some { proxy with watcher := .waiting seen }
          else none
      | _ => none

inductive Stepped : UdpEvent → UdpProxy → Prop
  | datagram {i : Nat} {worker : UdpWorker} {client : SocketAddr} {payload : Bytes} {nowMs : Nat}
      (hworker : proxy.workers[i]? = some worker) :
      Stepped (.datagram i client payload nowMs)
        (proxy.handleInbound rule peer i worker client payload nowMs)
  | finishCreate {i : Nat} {worker : UdpWorker} {creation : Creation} {connects : Bool}
      {nowMs : Nat} (hworker : proxy.workers[i]? = some worker)
      (hcreating : worker.creating = some creation) :
      Stepped (.finishCreate i connects nowMs)
        (proxy.createFlow rule i worker creation connects nowMs)
  | scan {i : Nat} {worker : UdpWorker} {nowMs : Nat} (hworker : proxy.workers[i]? = some worker)
      (hvictims : proxy.victims = []) :
      Stepped (.scan i nowMs) { proxy with
        victims := (idleClients rule worker.flows nowMs).map (fun client => (i, client)) }
  | reap {i : Nat} {client : SocketAddr} {rest : List (Nat × SocketAddr)}
      (hvictims : proxy.victims = (i, client) :: rest) :
      Stepped .reap { proxy.removeFlow i client with victims := rest }
  | upstreamFailed {i : Nat} {client : SocketAddr} :
      Stepped (.upstreamFailed i client) (proxy.removeFlow i client)
  | firstBorrow (hwatcher : proxy.watcher = .unborn) :
      Stepped .firstBorrow { proxy with watcher := .waiting peer.notified }
  | changed {seen : Nat} (hwatcher : proxy.watcher = .waiting seen)
      (hseen : seen ≠ peer.notified) :
      Stepped .changed { proxy with watcher := .draining peer.notified 0 0 }
  | drain {seen place drained : Nat} {worker : UdpWorker}
      (hwatcher : proxy.watcher = .draining seen place drained)
      (hworker : proxy.workers[place / rule.pieces]? = some worker) :
      Stepped .drain (proxy.drainPiece rule seen place drained worker)
  | drained {seen place drained : Nat} (hwatcher : proxy.watcher = .draining seen place drained)
      (hend : place = proxy.workers.length * rule.pieces) :
      Stepped .drained { proxy with watcher := .waiting seen }

variable {rule peer proxy} in
theorem stepped_of_step {event : UdpEvent} {next : UdpProxy}
    (hstep : proxy.step rule peer event = some next) : Stepped rule peer proxy event next := by
  cases event with
  | datagram i client payload nowMs =>
      simp only [step] at hstep
      split at hstep
      next worker hworker =>
        split_ifs at hstep
        cases hstep
        exact .datagram hworker
      next => cases hstep
  | finishCreate i connects nowMs =>
      simp only [step] at hstep
      split at hstep
      next worker hworker =>
        obtain ⟨creation, hcreating, rfl⟩ := Option.map_eq_some_iff.1 hstep
        exact .finishCreate hworker hcreating
      next => cases hstep
  | scan i nowMs =>
      simp only [step] at hstep
      split at hstep
      next worker hworker hvictims =>
        cases hstep
        exact .scan hworker hvictims
      next => cases hstep
  | reap =>
      simp only [step] at hstep
      split at hstep
      next => cases hstep
      next i client rest hvictims =>
        cases hstep
        exact .reap hvictims
  | upstreamFailed i client =>
      cases hstep
      exact .upstreamFailed
  | firstBorrow =>
      simp only [step] at hstep
      split at hstep
      next hwatcher =>
        cases hstep
        exact .firstBorrow hwatcher
      next => cases hstep
  | changed =>
      simp only [step] at hstep
      split at hstep
      next seen hwatcher =>
        split_ifs at hstep with hseen
        cases hstep
        exact .changed hwatcher hseen
      next => cases hstep
  | drain =>
      simp only [step] at hstep
      split at hstep
      next seen place drained hwatcher =>
        obtain ⟨worker, hworker, rfl⟩ := Option.map_eq_some_iff.1 hstep
        exact .drain hwatcher hworker
      next => cases hstep
  | drained =>
      simp only [step] at hstep
      split at hstep
      next seen place drained hwatcher =>
        split_ifs at hstep with hend
        cases hstep
        exact .drained hwatcher hend
      next => cases hstep

end UdpProxy

end

/-! ## The proxy and the peer's address -/

structure UdpSystem where
  peer : PeerState
  proxy : UdpProxy

inductive SystemEvent where
  | heartbeat (peerAddr : SocketAddr) (now : UInt64)
  | udp (event : UdpEvent)

def UdpSystem.step (rule : UdpRule) (system : UdpSystem) : SystemEvent → Option UdpSystem
  | .heartbeat peerAddr now =>
      some { system with peer := (system.peer.recordHeartbeat peerAddr now).1 }
  | .udp event =>
      (system.proxy.step rule system.peer event).map (fun proxy => { system with proxy := proxy })

def UdpProxy.Connected (proxy : UdpProxy) (i : Nat) (client target : SocketAddr) : Prop :=
  ∃ worker flow, proxy.workers[i]? = some worker ∧ worker.flows.lookup client = some flow ∧
    flow.target = target

namespace UdpProxy

variable {rule : UdpRule} {peer : PeerState} {proxy next : UdpProxy} {i j : Nat}
  {client target : SocketAddr} {worker : UdpWorker}

variable {changed : UdpWorker} {nowMs : Nat} {creation : Creation}

theorem connected_setWorker (h : Connected (proxy.setWorker j changed) i client target) :
    Connected proxy i client target ∨
      i = j ∧ ∃ flow, changed.flows.lookup client = some flow ∧ flow.target = target := by
  obtain ⟨found, flow, hfound, hflow, htarget⟩ := h
  rw [setWorker, List.getElem?_set] at hfound
  split at hfound
  next hsame =>
    split at hfound
    · cases hfound
      exact .inr ⟨hsame.symm, flow, hflow, htarget⟩
    · cases hfound
  next => exact .inl ⟨found, flow, hfound, hflow, htarget⟩

theorem connected_setWorker_of_lookup (hworker : proxy.workers[j]? = some worker)
    (hlookup : ∀ client flow, changed.flows.lookup client = some flow →
      ∃ flow', worker.flows.lookup client = some flow' ∧ flow'.target = flow.target)
    (h : Connected (proxy.setWorker j changed) i client target) :
    Connected proxy i client target := by
  rcases connected_setWorker h with h | ⟨rfl, flow, hflow, htarget⟩
  · exact h
  · obtain ⟨flow', hflow', hsame⟩ := hlookup client flow hflow
    exact ⟨worker, flow', hworker, hflow', hsame.trans htarget⟩

theorem connected_handleInbound {from_ : SocketAddr} {payload : Bytes}
    (hworker : proxy.workers[j]? = some worker)
    (h : Connected (proxy.handleInbound rule peer j worker from_ payload nowMs) i client target) :
    Connected proxy i client target := by
  unfold handleInbound at h
  split at h
  next flow hflow =>
    refine connected_setWorker_of_lookup hworker ?_ h
    intro other flow' hflow'
    by_cases hother : other = from_
    · subst hother
      dsimp only at hflow'
      rw [AList.lookup_insert] at hflow'
      exact ⟨flow, hflow, by rw [← Option.some.inj hflow']⟩
    · dsimp only at hflow'
      rw [AList.lookup_insert_ne hother] at hflow'
      exact ⟨flow', hflow', rfl⟩
  next =>
    split at h
    · refine connected_setWorker_of_lookup hworker ?_ h
      exact fun _ flow hflow => ⟨flow, hflow, rfl⟩
    · split at h
      · exact h
      · split at h
        · exact h
        · refine connected_setWorker_of_lookup hworker ?_ h
          exact fun _ flow hflow => ⟨flow, hflow, rfl⟩

theorem connected_sendFirst {upstream : SocketAddr}
    (h : Connected (proxy.sendFirst rule j changed creation upstream nowMs) i client target) :
    Connected proxy i client target ∨
      i = j ∧ ∃ flow, changed.flows.lookup client = some flow ∧ flow.target = target := by
  have hset : Connected (proxy.setWorker j { changed with
      pendingRealClients := changed.pendingRealClients.erase creation.client }) i client target := by
    unfold sendFirst at h
    dsimp only at h
    split at h
    · exact h
    · exact h
  have hcases := connected_setWorker hset
  exact hcases

theorem connected_createFlow {connects : Bool} (hworker : proxy.workers[j]? = some worker)
    (h : Connected (proxy.createFlow rule j worker creation connects nowMs) i client target) :
    Connected proxy i client target ∨
      i = j ∧ client = creation.client ∧ target = creation.target ∧
        worker.flows.lookup creation.client = none ∧ connects = true ∧
          proxy.flowCount < rule.maxFlows := by
  have hkept : ∀ {changed : UdpWorker}, changed.flows = worker.flows →
      Connected proxy i client target ∨
        i = j ∧ (∃ flow, changed.flows.lookup client = some flow ∧ flow.target = target) →
      Connected proxy i client target := by
    rintro changed hflows (hold | ⟨rfl, flow, hflow, htarget⟩)
    · exact hold
    · exact ⟨worker, flow, hworker, hflows ▸ hflow, htarget⟩
  unfold createFlow at h
  dsimp only at h
  split at h
  · have hcases := connected_setWorker h
    exact .inl (hkept rfl hcases)
  · rename_i hconnects
    split at h
    next existing _ =>
      have hcases := connected_sendFirst h
      exact .inl (hkept rfl hcases)
    next hnone =>
      split at h
      · have hcases := connected_setWorker h
        exact .inl (hkept rfl hcases)
      · rename_i hroom
        rcases connected_sendFirst h with hold | ⟨hi, flow, hflow, htarget⟩
        · exact .inl hold
        · by_cases hclient : client = creation.client
          · subst hclient
            dsimp only at hflow
            rw [AList.lookup_insert] at hflow
            rw [← Option.some.inj hflow] at htarget
            exact .inr ⟨hi, rfl, htarget.symm, hnone, by simpa using hconnects,
              Nat.lt_of_not_le hroom⟩
          · dsimp only at hflow
            rw [AList.lookup_insert_ne hclient] at hflow
            subst hi
            exact .inl ⟨worker, flow, hworker, hflow, htarget⟩

theorem connected_removeFlow {gone : SocketAddr}
    (h : Connected (proxy.removeFlow j gone) i client target) :
    Connected proxy i client target := by
  unfold removeFlow at h
  split at h
  · exact h
  next worker hworker =>
    split at h
    · refine connected_setWorker_of_lookup hworker ?_ h
      intro other flow hflow
      by_cases hother : other = gone
      · subst hother
        dsimp only at hflow
        rw [AList.lookup_erase] at hflow
        cases hflow
      · dsimp only at hflow
        rw [AList.lookup_erase_ne hother] at hflow
        exact ⟨flow, hflow, rfl⟩
    · exact h

theorem place_lt {count : Nat} (h : i < count) : rule.place i client < count * rule.pieces :=
  calc rule.place i client < i * rule.pieces + rule.pieces :=
        Nat.add_lt_add_left (rule.pieceOf_lt client) _
    _ = (i + 1) * rule.pieces := (Nat.succ_mul _ _).symm
    _ ≤ count * rule.pieces := Nat.mul_le_mul_right _ h

theorem connected_drainPiece {seen place drained : Nat}
    (hworker : proxy.workers[place / rule.pieces]? = some worker)
    (h : Connected (proxy.drainPiece rule seen place drained worker) i client target) :
    Connected proxy i client target ∧ rule.place i client ≠ place := by
  have hset : Connected (proxy.setWorker (place / rule.pieces) { worker with
      flows := eraseAll (worker.flows.keys.filter
        (fun client => rule.pieceOf client = place % rule.pieces)) worker.flows })
      i client target := by
    unfold drainPiece at h
    dsimp only at h
    split at h
    · exact h
    · exact h
  have hpiece : 0 < rule.pieces := rule.pieces_pos
  have hplace : rule.place i client = place →
      i = place / rule.pieces ∧ rule.pieceOf client = place % rule.pieces := by
    rintro rfl
    have hlt := rule.pieceOf_lt client
    unfold UdpRule.place
    rw [Nat.add_comm, Nat.add_mul_div_right _ _ hpiece, Nat.div_eq_of_lt hlt,
      Nat.add_mul_mod_self_right, Nat.mod_eq_of_lt hlt]
    exact ⟨(Nat.zero_add i).symm, rfl⟩
  refine ⟨connected_setWorker_of_lookup hworker ?_ hset, fun hhere => ?_⟩
  · intro other flow hflow
    dsimp only at hflow
    rw [lookup_eraseAll] at hflow
    split at hflow
    · cases hflow
    · exact ⟨flow, hflow, rfl⟩
  · obtain ⟨rfl, hsame⟩ := hplace hhere
    obtain ⟨found, flow, hfound, hflow, -⟩ := hset
    rw [setWorker, List.getElem?_set_self (List.getElem?_eq_some_iff.1 hworker).1] at hfound
    cases hfound
    dsimp only at hflow
    rw [lookup_eraseAll] at hflow
    split at hflow
    · cases hflow
    next hkept =>
      refine hkept (List.mem_filter.2 ⟨?_, by simpa using hsame⟩)
      exact AList.mem_keys.1 (mem_iff_lookup.2 ⟨flow, hflow⟩)

theorem watcher_handleInbound {from_ : SocketAddr} {payload : Bytes} :
    (proxy.handleInbound rule peer j worker from_ payload nowMs).watcher = proxy.watcher := by
  unfold handleInbound
  split
  · rfl
  · split
    · rfl
    · split
      · rfl
      · split <;> rfl

theorem watcher_sendFirst {upstream : SocketAddr} :
    (proxy.sendFirst rule j worker creation upstream nowMs).watcher = proxy.watcher := by
  unfold sendFirst
  dsimp only
  split <;> rfl

theorem watcher_createFlow {connects : Bool} :
    (proxy.createFlow rule j worker creation connects nowMs).watcher = proxy.watcher := by
  unfold createFlow
  dsimp only
  split
  · rfl
  · split
    · exact watcher_sendFirst
    · split
      · rfl
      · exact watcher_sendFirst

theorem watcher_removeFlow {gone : SocketAddr} :
    (proxy.removeFlow j gone).watcher = proxy.watcher := by
  unfold removeFlow
  split
  · rfl
  · split <;> rfl

theorem watcher_drainPiece (rule : UdpRule) (proxy : UdpProxy) (seen place drained : Nat)
    (worker : UdpWorker) :
    ∃ drained', (proxy.drainPiece rule seen place drained worker).watcher =
      .draining seen (place + 1) drained' := by
  unfold drainPiece
  dsimp only
  split
  · exact ⟨0, rfl⟩
  · exact ⟨_, rfl⟩

theorem watcher_step {event : UdpEvent} (hstep : proxy.step rule peer event = some next) :
    (event = .firstBorrow ∧ proxy.watcher = .unborn ∧ next.watcher = .waiting peer.notified) ∨
    (event = .changed ∧ ∃ seen, proxy.watcher = .waiting seen ∧ seen ≠ peer.notified) ∨
    ((event = .drain ∨ event = .drained) ∧
      ∃ seen place drained, proxy.watcher = .draining seen place drained) ∨
    (event ≠ .changed ∧ event ≠ .drain ∧ event ≠ .drained ∧ next.watcher = proxy.watcher) := by
  cases stepped_of_step hstep with
  | datagram hworker =>
      exact .inr (.inr (.inr ⟨by simp, by simp, by simp, watcher_handleInbound⟩))
  | finishCreate hworker hcreating =>
      exact .inr (.inr (.inr ⟨by simp, by simp, by simp, watcher_createFlow⟩))
  | scan hworker hvictims => exact .inr (.inr (.inr ⟨by simp, by simp, by simp, rfl⟩))
  | reap hvictims => exact .inr (.inr (.inr ⟨by simp, by simp, by simp, watcher_removeFlow⟩))
  | upstreamFailed => exact .inr (.inr (.inr ⟨by simp, by simp, by simp, watcher_removeFlow⟩))
  | firstBorrow hwatcher => exact .inl ⟨rfl, hwatcher, rfl⟩
  | changed hwatcher hseen => exact .inr (.inl ⟨rfl, _, hwatcher, hseen⟩)
  | drain hwatcher hworker => exact .inr (.inr (.inl ⟨.inl rfl, _, _, _, hwatcher⟩))
  | drained hwatcher hend => exact .inr (.inr (.inl ⟨.inr rfl, _, _, _, hwatcher⟩))

end UdpProxy

/-! ## No flow outlives a change of the address -/

open UdpProxy

def Watcher.seen : Watcher → Option Nat
  | .unborn => none
  | .waiting seen => some seen
  | .draining seen _ _ => some seen

/--
The watcher has still to come to this place for the latest change.  Before its
first look it will take whatever address it finds as the one flows are for.
-/
def Ahead (rule : UdpRule) (system : UdpSystem) (i : Nat) (client : SocketAddr) : Prop :=
  match system.proxy.watcher with
  | .unborn => True
  | .waiting seen => seen ≠ system.peer.notified
  | .draining seen place _ => seen ≠ system.peer.notified ∨ place ≤ rule.place i client

/-- The flow, if it is one, goes to the current address or will be dropped. -/
def Accounted (rule : UdpRule) (system : UdpSystem) (i : Nat) (client target : SocketAddr) : Prop :=
  some target.ip = system.peer.currentIp ∨ Ahead rule system i client

structure Watched (rule : UdpRule) (system : UdpSystem) : Prop where
  seen_le : ∀ seen, system.proxy.watcher.seen = some seen → seen ≤ system.peer.notified
  accounted : ∀ i client target, Connected system.proxy i client target →
    Accounted rule system i client target

/--
A flow is inserted while its target is still the current address, or before a
drain comes to its place; and the watcher's first look finds no other flow.
-/
def Timely (rule : UdpRule) (system : UdpSystem) : SystemEvent → Prop
  | .udp (.finishCreate i connects _) => connects = true → system.proxy.flowCount < rule.maxFlows →
      ∀ worker creation, system.proxy.workers[i]? = some worker →
        worker.creating = some creation → worker.flows.lookup creation.client = none →
          Accounted rule system i creation.client creation.target
  | .udp .firstBorrow => ∀ i client target, Connected system.proxy i client target →
      some target.ip = system.peer.currentIp
  | _ => True

section

variable {rule : UdpRule} {system next : UdpSystem} {proxy : UdpProxy}

theorem Watched.of_connected (h : Watched rule system)
    (hwatcher : proxy.watcher = system.proxy.watcher)
    (hflows : ∀ i client target, Connected proxy i client target →
      Connected system.proxy i client target ∨ Accounted rule system i client target) :
    Watched rule { system with proxy := proxy } := by
  have hahead : ∀ i client, Ahead rule { system with proxy := proxy } i client ↔
      Ahead rule system i client := by
    intro i client
    simp only [Ahead, hwatcher]
  constructor
  · intro seen hseen
    exact h.seen_le seen (hwatcher ▸ hseen)
  · intro i client target hconnected
    unfold Accounted
    rw [hahead]
    rcases hflows i client target hconnected with hold | hnew
    · exact h.accounted i client target hold
    · exact hnew

theorem Watched.heartbeat (h : Watched rule system) (peerAddr : SocketAddr) (now : UInt64) :
    Watched rule { system with peer := (system.peer.recordHeartbeat peerAddr now).1 } := by
  rcases system.peer.recordHeartbeat_cases peerAddr now with ⟨-, heq⟩ | ⟨-, heq⟩
  · rw [heq]
    exact ⟨h.seen_le, h.accounted⟩
  · rw [heq]
    constructor
    · exact fun seen hseen => Nat.le_succ_of_le (h.seen_le seen hseen)
    · intro i client target _
      right
      unfold Ahead
      have hseen := h.seen_le
      dsimp only
      split
      next => trivial
      next seen hwatcher =>
        have := hseen seen (by rw [hwatcher]; rfl)
        omega
      next seen place _ hwatcher =>
        have := hseen seen (by rw [hwatcher]; rfl)
        omega

theorem Watched.udp (h : Watched rule system) {event : UdpEvent}
    (htimely : Timely rule system (.udp event))
    (hstep : system.proxy.step rule system.peer event = some proxy) :
    Watched rule { system with proxy := proxy } := by
  cases stepped_of_step hstep with
  | datagram hworker =>
      exact h.of_connected watcher_handleInbound
        (fun _ _ _ hconnected => .inl (connected_handleInbound hworker hconnected))
  | finishCreate hworker hcreating =>
      refine h.of_connected watcher_createFlow ?_
      intro j client target hconnected
      rcases connected_createFlow hworker hconnected with
        hold | ⟨rfl, rfl, rfl, hnone, hconnects, hroom⟩
      · exact .inl hold
      · exact .inr (htimely hconnects hroom _ _ hworker hcreating hnone)
  | scan hworker hvictims =>
      exact h.of_connected rfl (fun _ _ _ hconnected => .inl hconnected)
  | reap hvictims =>
      exact h.of_connected watcher_removeFlow
        (fun _ _ _ hconnected => .inl (connected_removeFlow hconnected))
  | upstreamFailed =>
      exact h.of_connected watcher_removeFlow
        (fun _ _ _ hconnected => .inl (connected_removeFlow hconnected))
  | firstBorrow hwatcher =>
      constructor
      · intro seen hseen
        exact (Option.some.inj hseen).ge
      · exact fun i client target hconnected => .inl (htimely i client target hconnected)
  | changed hwatcher hseen =>
      constructor
      · intro seen hseen
        exact (Option.some.inj hseen).ge
      · exact fun i client target _ => .inr (.inr (Nat.zero_le _))
  | @drain seen place drained worker hwatcher hworker =>
      obtain ⟨drained', hnext⟩ := watcher_drainPiece rule system.proxy seen place drained worker
      constructor
      · intro seen' hseen'
        dsimp only at hseen'
        rw [hnext] at hseen'
        exact h.seen_le seen' (by rw [hwatcher]; exact hseen')
      · intro i client target hconnected
        obtain ⟨hold, hplace⟩ := connected_drainPiece hworker hconnected
        have haccount := h.accounted i client target hold
        unfold Accounted Ahead at haccount ⊢
        rw [hwatcher] at haccount
        dsimp only at haccount ⊢
        rw [hnext]
        rcases haccount with hcurrent | hseen | hahead
        · exact .inl hcurrent
        · exact .inr (.inl hseen)
        · exact .inr (.inr (by omega))
  | drained hwatcher hend =>
      constructor
      · intro seen' hseen'
        exact h.seen_le seen' (by rw [hwatcher]; exact hseen')
      · intro i client target hconnected
        have haccount := h.accounted i client target hconnected
        unfold Accounted Ahead at haccount ⊢
        rw [hwatcher] at haccount
        rcases haccount with hcurrent | hseen | hahead
        · exact .inl hcurrent
        · exact .inr hseen
        · obtain ⟨worker, -, hworker, -⟩ := hconnected
          have hlt : i < system.proxy.workers.length := (List.getElem?_eq_some_iff.1 hworker).1
          have hpast : rule.place i client < system.proxy.workers.length * rule.pieces :=
            place_lt hlt
          omega

theorem watched_step {event : SystemEvent} (h : Watched rule system)
    (htimely : Timely rule system event) (hstep : system.step rule event = some next) :
    Watched rule next := by
  cases event with
  | heartbeat peerAddr now =>
      cases hstep
      exact h.heartbeat peerAddr now
  | udp event =>
      obtain ⟨proxy, hproxy, rfl⟩ := Option.map_eq_some_iff.1 hstep
      exact h.udp htimely hproxy

theorem not_connected_start (workers i : Nat) (client target : SocketAddr) :
    ¬ Connected (start workers) i client target := by
  rintro ⟨worker, flow, hworker, hflow, -⟩
  obtain ⟨hlt, rfl⟩ := List.getElem?_eq_some_iff.1 hworker
  simp [start] at hflow

theorem watched_start (rule : UdpRule) (peer : PeerState) (workers : Nat) :
    Watched rule ⟨peer, start workers⟩ := by
  constructor
  · intro seen hseen
    cases hseen
  · exact fun i client target hconnected =>
      absurd hconnected (not_connected_start workers i client target)

/--
Once the watcher has dealt with the latest change, every flow is connected to
the current address, whatever the order of the steps, as long as every insert
and the watcher's first look come in time.
-/
theorem no_stale_flow {peer : PeerState} {workers : Nat} {events : List SystemEvent}
    (htimely : Along (UdpSystem.step rule) (Timely rule) ⟨peer, start workers⟩ events)
    (hrun : run (UdpSystem.step rule) ⟨peer, start workers⟩ events = some system)
    (hdone : system.proxy.watcher = .waiting system.peer.notified) :
    ∀ i client target, Connected system.proxy i client target →
      some target.ip = system.peer.currentIp := by
  have hwatched : Watched rule system :=
    run_invariant_of_guard (UdpSystem.step rule) (P := Watched rule)
      (fun _ _ _ h hevent hstep => watched_step h hevent hstep) (watched_start rule peer workers)
      htimely hrun
  intro i client target hconnected
  rcases hwatched.accounted i client target hconnected with hcurrent | hahead
  · exact hcurrent
  · unfold Ahead at hahead
    rw [hdone] at hahead
    exact absurd rfl hahead

end

def gameRule : UdpRule :=
  ⟨9, ⟨.v4 0, 7⟩, false, false, 8, 60000, 1, fun _ => 0, fun _ => Nat.zero_lt_one⟩

def home : SocketAddr := ⟨.v4 1, 5000⟩

def moved : SocketAddr := ⟨.v4 2, 5000⟩

def player : SocketAddr := ⟨.v4 3, 4000⟩

def movesTo (peerAddr : SocketAddr) : List SystemEvent :=
  [.heartbeat peerAddr 1, .udp .changed, .udp .drain, .udp .drained]

def lateInsert : List SystemEvent :=
  .udp .firstBorrow :: movesTo home ++ .udp (.datagram 0 player [] 0) :: movesTo moved ++
    [.udp (.finishCreate 0 true 0)]

def lateWatcher : List SystemEvent :=
  [.heartbeat home 1, .udp (.datagram 0 player [] 0), .udp (.finishCreate 0 true 0),
    .heartbeat moved 2, .udp .firstBorrow]

def EndsStale (events : List SystemEvent) : Prop :=
  ∃ system, run (UdpSystem.step gameRule) ⟨.new none, start 1⟩ events = some system ∧
    system.proxy.watcher = .waiting system.peer.notified ∧
    (∀ worker ∈ system.proxy.workers, worker.creating = none) ∧
    system.peer.currentIp = some moved.ip ∧
    Connected system.proxy 0 player ⟨home.ip, 9⟩

theorem flow_to_old_address_stays : EndsStale lateInsert ∧ EndsStale lateWatcher := by
  constructor
  · exact ⟨_, rfl, rfl, by decide, rfl, _, _, rfl, rfl, rfl⟩
  · exact ⟨_, rfl, rfl, by decide, rfl, _, _, rfl, rfl, rfl⟩

def promptInsert : List SystemEvent :=
  .udp .firstBorrow :: movesTo home ++
    [.udp (.datagram 0 player [] 0), .udp (.finishCreate 0 true 0)]

theorem no_stale_flow_prompt :
    ∃ system, run (UdpSystem.step gameRule) ⟨.new none, start 1⟩ promptInsert = some system ∧
      Connected system.proxy 0 player ⟨home.ip, 9⟩ ∧
      ∀ i client target, Connected system.proxy i client target →
        some target.ip = system.peer.currentIp := by
  have htimely : Along (UdpSystem.step gameRule) (Timely gameRule) ⟨.new none, start 1⟩
      promptInsert := by
    refine along_cons _ (fun i client target hconnected => ?_) rfl ?_
    · exact absurd hconnected (not_connected_start 1 i client target)
    refine along_cons _ trivial rfl (along_cons _ trivial rfl (along_cons _ trivial rfl
      (along_cons _ trivial rfl (along_cons _ trivial rfl (along_cons _ ?_ rfl trivial)))))
    intro _ _ worker creation hworker hcreation _
    cases hworker
    cases hcreation
    exact .inl rfl
  exact ⟨_, rfl, ⟨_, _, rfl, rfl, rfl⟩, no_stale_flow htimely rfl rfl⟩

end Yggdrasil.Proxy
