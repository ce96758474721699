import Yggdrasil.Proxy.ProxyHeader
import Yggdrasil.Proxy.UdpFlows

/-!
# Announced clients on a relay

A chain peer announces the client of a flow in a datagram of its own.  The relay
keeps the announcement only if it has no flow for the peer, and gives it up for
the first flow it opens; nothing else takes an announcement away, and the reaper
does not look at them.  What a header says, and what is left to be taken, can
therefore be told from the announcements and openings alone.
-/

namespace Yggdrasil.Proxy

open Foundation Ratatoskr
open Yggdrasil.Heartbeat (PeerState)

inductive Note where
  | announced (worker : Nat) (peer client : SocketAddr) (atMs : Nat) (stashed : Bool)
  /-- `create_flow` has returned a flow for a datagram of the peer. -/
  | opened (worker : Nat) (peer : SocketAddr)
  deriving DecidableEq, Repr

def Note.Touches (i : Nat) (peer : SocketAddr) : Note → Prop
  | .announced j other _ _ stashed => stashed = true ∧ j = i ∧ other = peer
  | .opened j other => j = i ∧ other = peer

def Note.clientOf (peer : SocketAddr) : Note → Option SocketAddr
  | .announced _ other client _ _ => if other = peer then some client else none
  | .opened _ _ => none

def Note.leaves (i : Nat) (peer : SocketAddr) (kept : Option (SocketAddr × Nat)) :
    Note → Option (SocketAddr × Nat)
  | .announced j other client atMs stashed =>
      if stashed = true ∧ j = i ∧ other = peer then some (client, atMs) else kept
  | .opened j other => if j = i ∧ other = peer then none else kept

def lastAnnounced (notes : List Note) (peer : SocketAddr) : Option SocketAddr :=
  (notes.filterMap (Note.clientOf peer)).getLast?

/-- The announcement came while the peer had no flow, and is neither replaced nor taken. -/
def Standing (notes : List Note) (i : Nat) (peer client : SocketAddr) (atMs : Nat) : Prop :=
  ∃ before after, notes = before ++ .announced i peer client atMs true :: after ∧
    ∀ note ∈ after, ¬note.Touches i peer

def UdpRule.announcement (rule : UdpRule) (payload : Bytes) : Option ProxyEndpoints :=
  if rule.expectInboundProxy then decodeV2FromDatagram payload else none

namespace UdpProxy

variable (rule : UdpRule) (proxy : UdpProxy)

def noteOf : UdpEvent → Option Note
  | .datagram i client payload nowMs =>
      (proxy.workers[i]?).bind fun worker =>
        (rule.announcement payload).map fun endpoints =>
          .announced i client endpoints.client nowMs (worker.flows.lookup client).isNone
  | .finishCreate i connects _ =>
      (proxy.workers[i]?).bind fun worker =>
        worker.creating.bind fun creation =>
          if connects ∧ (creation.client ∈ worker.flows ∨ proxy.flowCount < rule.maxFlows) then
            some (.opened i creation.client)
          else none
  | _ => none

def stash (i : Nat) (peer : SocketAddr) : Option (SocketAddr × Nat) :=
  (proxy.workers[i]?).bind fun worker => worker.pendingRealClients.lookup peer

end UdpProxy

structure Observed where
  system : UdpSystem
  notes : List Note

namespace Observed

def start (peer : PeerState) (workers : Nat) : Observed := ⟨⟨peer, .start workers⟩, []⟩

def noteOf (rule : UdpRule) (observed : Observed) : SystemEvent → Option Note
  | .heartbeat _ _ => none
  | .udp event => observed.system.proxy.noteOf rule event

def step (rule : UdpRule) (observed : Observed) (event : SystemEvent) : Option Observed :=
  (observed.system.step rule event).map fun system =>
    ⟨system, observed.notes ++ (observed.noteOf rule event).toList⟩

end Observed

namespace UdpProxy

variable {rule : UdpRule} {peer : PeerState} {proxy next : UdpProxy} {i j : Nat}
  {worker changed : UdpWorker} {client : SocketAddr}

theorem stash_setWorker (hworker : proxy.workers[j]? = some worker) :
    (proxy.setWorker j changed).stash i client =
      if j = i then changed.pendingRealClients.lookup client else proxy.stash i client := by
  unfold stash setWorker
  dsimp only
  rw [List.getElem?_set]
  split
  next hsame => rw [if_pos (List.getElem?_eq_some_iff.1 hworker).1, Option.bind_some]
  next => rfl

theorem stash_forward {target : SocketAddr} {payload : Bytes} :
    (proxy.forward target payload).stash i client = proxy.stash i client := rfl

theorem stash_eq_lookup (hworker : proxy.workers[i]? = some worker) :
    proxy.stash i client = worker.pendingRealClients.lookup client := by
  rw [stash, hworker, Option.bind_some]

theorem stash_setWorker_of_eq (hworker : proxy.workers[j]? = some worker)
    (hsame : changed.pendingRealClients = worker.pendingRealClients) :
    (proxy.setWorker j changed).stash i client = proxy.stash i client := by
  rw [stash_setWorker hworker]
  split
  next heq => rw [hsame, ← stash_eq_lookup hworker, heq]
  next => rfl

variable {nowMs : Nat}

theorem stash_sendFirst {creation : Creation} {target : SocketAddr}
    (hworker : proxy.workers[j]? = some worker)
    (hsame : changed.pendingRealClients = worker.pendingRealClients) :
    (proxy.sendFirst rule j changed creation target nowMs).stash i client =
      if j = i ∧ creation.client = client then none else proxy.stash i client := by
  have hset : (proxy.sendFirst rule j changed creation target nowMs).stash i client =
      (proxy.setWorker j { changed with
        pendingRealClients := changed.pendingRealClients.erase creation.client }).stash i
          client := by
    unfold sendFirst
    dsimp only
    split <;> rfl
  rw [hset, stash_setWorker hworker]
  by_cases hi : j = i
  · subst hi
    dsimp only
    rw [if_pos rfl, hsame]
    by_cases hclient : creation.client = client
    · rw [if_pos ⟨rfl, hclient⟩, hclient, AList.lookup_erase]
    · rw [if_neg (fun h => hclient h.2), AList.lookup_erase_ne (Ne.symm hclient),
        stash_eq_lookup hworker]
  · rw [if_neg hi, if_neg (fun h => hi h.1)]

theorem stash_removeFlow {gone : SocketAddr} :
    (proxy.removeFlow j gone).stash i client = proxy.stash i client := by
  unfold removeFlow
  split
  · rfl
  next worker hworker =>
    split
    · exact stash_setWorker_of_eq hworker rfl
    · rfl

theorem stash_drainPiece {seen place drained : Nat}
    (hworker : proxy.workers[place / rule.pieces]? = some worker) :
    (proxy.drainPiece rule seen place drained worker).stash i client = proxy.stash i client := by
  have hset : (proxy.drainPiece rule seen place drained worker).stash i client =
      (proxy.setWorker (place / rule.pieces) { worker with
        flows := eraseAll (worker.flows.keys.filter
          (fun client => rule.pieceOf client = place % rule.pieces)) worker.flows }).stash i
            client := by
    unfold drainPiece
    dsimp only
    split <;> rfl
  rw [hset]
  exact stash_setWorker_of_eq hworker rfl

theorem stash_handleInbound {payload : Bytes} {from_ : SocketAddr}
    (hworker : proxy.workers[j]? = some worker) :
    (proxy.handleInbound rule peer j worker from_ payload nowMs).stash i client =
      (proxy.noteOf rule (.datagram j from_ payload nowMs)).elim (proxy.stash i client)
        (Note.leaves i client (proxy.stash i client)) := by
  rw [noteOf, hworker, Option.bind_some]
  unfold handleInbound
  split
  next flow hflow =>
    -- the announcement, if it is one, goes to the flow that is there
    rw [stash_forward, stash_setWorker_of_eq hworker (by rfl)]
    cases rule.announcement payload with
    | none => rfl
    | some endpoints => exact (if_neg (by simp [hflow])).symm
  next hvacant =>
    split
    next endpoints hannounced =>
      rw [UdpRule.announcement, hannounced, stash_setWorker hworker]
      by_cases hi : j = i
      · subst hi
        by_cases hclient : from_ = client
        · simp [Note.leaves, hvacant, hclient]
        · simp [Note.leaves, hclient, AList.lookup_insert_ne (Ne.symm hclient),
            stash_eq_lookup hworker]
      · simp [Note.leaves, hi]
    next hplain =>
      rw [UdpRule.announcement, hplain]
      split
      · rfl
      · split
        · rfl
        · exact stash_setWorker_of_eq hworker rfl

theorem stash_createFlow {creation : Creation} {connects : Bool}
    (hworker : proxy.workers[j]? = some worker) (hcreating : worker.creating = some creation) :
    (proxy.createFlow rule j worker creation connects nowMs).stash i client =
      (proxy.noteOf rule (.finishCreate j connects nowMs)).elim (proxy.stash i client)
        (Note.leaves i client (proxy.stash i client)) := by
  rw [noteOf, hworker, Option.bind_some, hcreating, Option.bind_some]
  unfold createFlow
  dsimp only
  cases connects with
  | false =>
      rw [if_pos Bool.not_false, if_neg (by simp)]
      exact stash_setWorker_of_eq hworker rfl
  | true =>
      rw [if_neg (by simp)]
      split
      next existing hexisting =>
        have hmem : creation.client ∈ worker.flows := mem_iff_lookup.2 ⟨existing, hexisting⟩
        rw [if_pos ⟨rfl, .inl hmem⟩]
        exact stash_sendFirst hworker rfl
      next hvacant =>
        have hnot : creation.client ∉ worker.flows := AList.lookup_eq_none.1 hvacant
        split
        next hcap =>
          rw [if_neg (by simp [hnot, hcap])]
          exact stash_setWorker_of_eq hworker rfl
        next hroom =>
          rw [if_pos ⟨rfl, .inr (Nat.lt_of_not_le hroom)⟩]
          exact stash_sendFirst hworker rfl

theorem stash_step {event : UdpEvent} (hstep : proxy.step rule peer event = some next) (i : Nat)
    (client : SocketAddr) :
    next.stash i client = (proxy.noteOf rule event).elim (proxy.stash i client)
      (Note.leaves i client (proxy.stash i client)) := by
  cases stepped_of_step hstep with
  | datagram hworker => exact stash_handleInbound hworker
  | finishCreate hworker hcreating => exact stash_createFlow hworker hcreating
  | scan hworker hvictims => rfl
  | reap hvictims => exact stash_removeFlow
  | upstreamFailed => exact stash_removeFlow
  | firstBorrow hwatcher => rfl
  | changed hwatcher hseen => rfl
  | drain hwatcher hworker => exact stash_drainPiece hworker
  | drained hwatcher hend => rfl

end UdpProxy

/-! ## Standing announcements are those kept -/

variable {i atMs : Nat} {client : SocketAddr}

theorem not_standing_nil {peer : SocketAddr} : ¬Standing [] i peer client atMs := by
  rintro ⟨before, after, hnotes, -⟩
  cases before <;> cases hnotes

theorem standing_concat_iff {notes : List Note} {note : Note} {peer : SocketAddr} :
    Standing (notes ++ [note]) i peer client atMs ↔
      note = .announced i peer client atMs true ∨
        ¬note.Touches i peer ∧ Standing notes i peer client atMs := by
  constructor
  · rintro ⟨before, after, hnotes, huntouched⟩
    induction after using List.reverseRecOn with
    | nil =>
        obtain ⟨-, hlast⟩ := List.append_inj' hnotes rfl
        exact .inl (List.singleton_inj.1 hlast)
    | append_singleton after last _ =>
        rw [← List.cons_append, ← List.append_assoc] at hnotes
        obtain ⟨hinit, hlast⟩ := List.append_inj' hnotes rfl
        obtain rfl := List.singleton_inj.1 hlast
        refine .inr ⟨huntouched note (by simp), before, after, hinit, fun other hother => ?_⟩
        exact huntouched other (List.mem_append_left _ hother)
  · rintro (rfl | ⟨huntouched, before, after, rfl, hafter⟩)
    · exact ⟨notes, [], rfl, nofun⟩
    · refine ⟨before, after ++ [note], by simp, fun other hother => ?_⟩
      rcases List.mem_append.1 hother with hmem | hmem
      · exact hafter other hmem
      · rw [List.mem_singleton.1 hmem]
        exact huntouched

theorem leaves_eq_some_iff {notes : List Note} {peer : SocketAddr}
    {kept : Option (SocketAddr × Nat)}
    (hkept : kept = some (client, atMs) ↔ Standing notes i peer client atMs) (note : Note) :
    note.leaves i peer kept = some (client, atMs) ↔
      Standing (notes ++ [note]) i peer client atMs := by
  rw [standing_concat_iff]
  cases note with
  | announced j other client' atMs' stashed =>
      by_cases hhere : stashed = true ∧ j = i ∧ other = peer
      · obtain ⟨rfl, rfl, rfl⟩ := hhere
        simp [Note.leaves, Note.Touches]
      · rw [Note.leaves, if_neg hhere, hkept]
        constructor
        · exact fun h => .inr ⟨hhere, h⟩
        · rintro (h | ⟨-, h⟩)
          · cases h
            exact absurd ⟨rfl, rfl, rfl⟩ hhere
          · exact h
  | opened j other =>
      by_cases hhere : j = i ∧ other = peer
      · simp [Note.leaves, Note.Touches, hhere]
      · simp [Note.leaves, Note.Touches, hhere, hkept]

namespace Observed

variable {rule : UdpRule} {peer : PeerState} {workers : Nat} {observed next : Observed}

def Tracks (observed : Observed) : Prop :=
  ∀ i from_ client atMs, observed.system.proxy.stash i from_ = some (client, atMs) ↔
    Standing observed.notes i from_ client atMs

theorem tracks_start (peer : PeerState) (workers : Nat) : Tracks (start peer workers) := by
  intro i from_ client atMs
  refine iff_of_false ?_ not_standing_nil
  have hnone : (UdpProxy.start workers).stash i from_ = none := by
    unfold UdpProxy.stash UdpProxy.start
    dsimp only
    rw [List.getElem?_replicate]
    split <;> rfl
  rw [start, hnone]
  exact nofun

theorem Tracks.step {event : SystemEvent} (h : Tracks observed)
    (hstep : observed.step rule event = some next) : Tracks next := by
  obtain ⟨system, hsystem, rfl⟩ := Option.map_eq_some_iff.1 hstep
  intro i from_ client atMs
  cases event with
  | heartbeat peerAddr now =>
      cases hsystem
      simpa [noteOf] using h i from_ client atMs
  | udp event =>
      obtain ⟨proxy, hproxy, rfl⟩ := Option.map_eq_some_iff.1 hsystem
      dsimp only [noteOf]
      rw [UdpProxy.stash_step hproxy]
      cases observed.system.proxy.noteOf rule event with
      | none => simpa using h i from_ client atMs
      | some note => exact leaves_eq_some_iff (h i from_ client atMs) note

theorem tracks_run {events : List SystemEvent}
    (hrun : run (Observed.step rule) (start peer workers) events = some observed) :
    Tracks observed :=
  run_invariant (Observed.step rule) (fun _ _ _ h hstep => h.step hstep)
    (tracks_start peer workers) hrun

end Observed

def outboundClient (kept : Option (SocketAddr × Nat)) (from_ : SocketAddr) (nowMs : Nat) :
    SocketAddr :=
  match kept with
  | some (real, stashedAt) => if nowMs - stashedAt ≤ pendingProxyTtlMs then real else from_
  | none => from_

namespace UdpProxy

variable {rule : UdpRule} {peer : PeerState} {proxy next : UdpProxy} {j : Nat}
  {worker : UdpWorker} {creation : Creation}

def firstDatagrams (rule : UdpRule) (proxy : UdpProxy) (j : Nat) (creation : Creation)
    (target : SocketAddr) (nowMs : Nat) : List (SocketAddr × Bytes) :=
  (if rule.emitsProxyV2 then
    [(target, encodeV2 (outboundClient (proxy.stash j creation.client) creation.client nowMs)
      rule.localAddr)] else []) ++ [(target, creation.payload)]

theorem forwarded_sendFirst {changed : UdpWorker} {target : SocketAddr} {nowMs : Nat}
    (hkept : changed.pendingRealClients.lookup creation.client = proxy.stash j creation.client) :
    (proxy.sendFirst rule j changed creation target nowMs).forwarded =
      proxy.forwarded ++ firstDatagrams rule proxy j creation target nowMs := by
  unfold sendFirst firstDatagrams
  rw [hkept]
  cases proxy.stash j creation.client with
  | none =>
      dsimp only
      split
      · simp [forward, setWorker, outboundClient]
      · rfl
  | some kept =>
      dsimp only
      split
      · simp [forward, setWorker, outboundClient]
      · rfl

theorem forwarded_createFlow (rule : UdpRule) (creation : Creation) (connects : Bool) (nowMs : Nat)
    (hworker : proxy.workers[j]? = some worker) :
    (proxy.createFlow rule j worker creation connects nowMs).forwarded = proxy.forwarded ∨
      ∃ target, (proxy.createFlow rule j worker creation connects nowMs).forwarded =
        proxy.forwarded ++ firstDatagrams rule proxy j creation target nowMs := by
  have hkept : worker.pendingRealClients.lookup creation.client = proxy.stash j creation.client :=
    (stash_eq_lookup hworker).symm
  unfold createFlow
  dsimp only
  split
  · exact .inl rfl
  · split
    next existing _ => exact .inr ⟨existing.target, forwarded_sendFirst hkept⟩
    next =>
      split
      · exact .inl rfl
      · exact .inr ⟨creation.target, forwarded_sendFirst hkept⟩

theorem forwarded_removeFlow {gone : SocketAddr} :
    (proxy.removeFlow j gone).forwarded = proxy.forwarded := by
  unfold removeFlow
  split
  · rfl
  · split <;> rfl

theorem forwarded_drainPiece {seen place drained : Nat} :
    (proxy.drainPiece rule seen place drained worker).forwarded = proxy.forwarded := by
  unfold drainPiece
  dsimp only
  split <;> rfl

theorem forwarded_step {event : UdpEvent} (hstep : proxy.step rule peer event = some next) :
    next.forwarded = proxy.forwarded ∨
    (∃ i client payload nowMs target, event = .datagram i client payload nowMs ∧
      next.forwarded = proxy.forwarded ++ [(target, payload)]) ∨
    ∃ i connects nowMs worker creation target, event = .finishCreate i connects nowMs ∧
      proxy.workers[i]? = some worker ∧ worker.creating = some creation ∧
      next.forwarded = proxy.forwarded ++ firstDatagrams rule proxy i creation target nowMs := by
  cases stepped_of_step hstep with
  | @datagram i _ client payload nowMs hworker =>
      unfold handleInbound
      split
      next flow _ => exact .inr (.inl ⟨i, client, payload, nowMs, flow.target, rfl, rfl⟩)
      next =>
        left
        split
        · rfl
        · split
          · rfl
          · split <;> rfl
  | @finishCreate i worker creation connects nowMs hworker hcreating =>
      rcases forwarded_createFlow rule creation connects nowMs hworker with hsame | ⟨target, hsent⟩
      · exact .inl hsame
      · exact .inr (.inr ⟨i, connects, nowMs, worker, creation, target, rfl, hworker, hcreating,
          hsent⟩)
  | scan hworker hvictims => exact .inl rfl
  | reap hvictims => exact .inl forwarded_removeFlow
  | upstreamFailed => exact .inl forwarded_removeFlow
  | firstBorrow hwatcher => exact .inl rfl
  | changed hwatcher hseen => exact .inl rfl
  | drain hwatcher hworker => exact .inl forwarded_drainPiece
  | drained hwatcher hend => exact .inl rfl

end UdpProxy

namespace Observed

variable {rule : UdpRule} {peer : PeerState} {workers : Nat} {observed next : Observed}

theorem outboundClient_eq_iff (htracks : Tracks observed) {i : Nat} {from_ client : SocketAddr}
    {nowMs : Nat} :
    outboundClient (observed.system.proxy.stash i from_) from_ nowMs = client ↔
      (∃ atMs, Standing observed.notes i from_ client atMs ∧ nowMs - atMs ≤ pendingProxyTtlMs) ∨
        from_ = client ∧ ∀ other atMs, Standing observed.notes i from_ other atMs →
          pendingProxyTtlMs < nowMs - atMs := by
  simp only [← htracks i from_]
  cases observed.system.proxy.stash i from_ with
  | none => simp [outboundClient]
  | some kept =>
      obtain ⟨real, stashedAt⟩ := kept
      by_cases hfresh : nowMs - stashedAt ≤ pendingProxyTtlMs
      · simp only [outboundClient, if_pos hfresh, Option.some.injEq, Prod.mk.injEq]
        constructor
        · exact fun hreal => .inl ⟨stashedAt, ⟨hreal, rfl⟩, hfresh⟩
        · rintro (⟨_, ⟨hreal, -⟩, -⟩ | ⟨-, hstale⟩)
          · exact hreal
          · exact absurd hfresh (Nat.not_le.2 (hstale real stashedAt ⟨rfl, rfl⟩))
      · simp only [outboundClient, if_neg hfresh, Option.some.injEq, Prod.mk.injEq]
        constructor
        · intro hfrom
          refine .inr ⟨hfrom, ?_⟩
          rintro _ _ ⟨rfl, rfl⟩
          exact Nat.lt_of_not_le hfresh
        · rintro (⟨_, ⟨-, rfl⟩, h⟩ | ⟨hfrom, -⟩)
          · exact absurd h hfresh
          · exact hfrom

theorem header_step {event : SystemEvent} {target : SocketAddr} {header payload : Bytes}
    (hstep : observed.step rule event = some next)
    (hsent : next.system.proxy.forwarded =
      observed.system.proxy.forwarded ++ [(target, header), (target, payload)]) :
    ∃ i connects nowMs worker creation, event = .udp (.finishCreate i connects nowMs) ∧
      observed.system.proxy.workers[i]? = some worker ∧ worker.creating = some creation ∧
      header = encodeV2 (outboundClient (observed.system.proxy.stash i creation.client)
        creation.client nowMs) rule.localAddr := by
  obtain ⟨system, hsystem, rfl⟩ := Option.map_eq_some_iff.1 hstep
  cases event with
  | heartbeat peerAddr now =>
      rw [← Option.some.inj hsystem] at hsent
      simp at hsent
  | udp event =>
      obtain ⟨proxy, hproxy, rfl⟩ := Option.map_eq_some_iff.1 hsystem
      rcases UdpProxy.forwarded_step hproxy with hsame | ⟨_, _, _, _, _, -, hone⟩ |
        ⟨i, connects, nowMs, worker, creation, target', rfl, hworker, hcreating, hfirst⟩
      · rw [hsame] at hsent
        simp at hsent
      · rw [hone] at hsent
        simp at hsent
      · refine ⟨i, connects, nowMs, worker, creation, rfl, hworker, hcreating, ?_⟩
        rw [hfirst, List.append_cancel_left_eq, UdpProxy.firstDatagrams] at hsent
        split at hsent
        · simp only [List.cons_append, List.nil_append, List.cons.injEq, Prod.mk.injEq] at hsent
          exact hsent.1.2.symm
        · simp at hsent

/--
A header sent for a new flow names the client its peer has announced last
exactly when that client is of the listener's family and its announcement is
kept and fresh, or is the peer itself and none is kept and fresh.
-/
theorem header_names_announced_iff {events : List SystemEvent} {event : SystemEvent}
    {target : SocketAddr} {header payload : Bytes}
    (hrun : run (Observed.step rule) (start peer workers) events = some observed)
    (hstep : observed.step rule event = some next)
    (hsent : next.system.proxy.forwarded =
      observed.system.proxy.forwarded ++ [(target, header), (target, payload)]) :
    ∃ i connects nowMs worker creation, event = .udp (.finishCreate i connects nowMs) ∧
      observed.system.proxy.workers[i]? = some worker ∧ worker.creating = some creation ∧
      ∀ client, lastAnnounced observed.notes creation.client = some client →
        ((decodeV2FromDatagram header).map ProxyEndpoints.client = some client ↔
          sameFamily client.ip rule.localAddr.ip = true ∧
            ((∃ atMs, Standing observed.notes i creation.client client atMs ∧
                nowMs - atMs ≤ pendingProxyTtlMs) ∨
              creation.client = client ∧
                ∀ other atMs, Standing observed.notes i creation.client other atMs →
                  pendingProxyTtlMs < nowMs - atMs)) := by
  obtain ⟨i, connects, nowMs, worker, creation, hevent, hworker, hcreating, hheader⟩ :=
    header_step hstep hsent
  refine ⟨i, connects, nowMs, worker, creation, hevent, hworker, hcreating, fun client _ => ?_⟩
  have hdecode : decodeV2FromDatagram header = if sameFamily (outboundClient
      (observed.system.proxy.stash i creation.client) creation.client nowMs).ip rule.localAddr.ip
      then some ⟨outboundClient (observed.system.proxy.stash i creation.client) creation.client
        nowMs, rule.localAddr⟩ else none := by
    rw [hheader, ← List.append_nil (encodeV2 _ _), decodeV2FromDatagram_encodeV2]
  rw [← outboundClient_eq_iff (tracks_run hrun), hdecode]
  split
  next hfamily =>
    constructor
    · intro hnamed
      have hclient := Option.some.inj hnamed
      exact ⟨hclient ▸ hfamily, hclient⟩
    · rintro ⟨-, hclient⟩
      exact congrArg some hclient
  next hfamily =>
    refine iff_of_false nofun ?_
    rintro ⟨hsame, hclient⟩
    exact hfamily (hclient.symm ▸ hsame)

/-! ## Announcements nobody takes -/

def IsReaperStep : SystemEvent → Prop
  | .udp (.scan _ _) => True
  | .udp .reap => True
  | _ => False

theorem notes_reaperStep {event : SystemEvent} (hreaper : IsReaperStep event)
    (hstep : observed.step rule event = some next) : next.notes = observed.notes := by
  obtain ⟨system, -, rfl⟩ := Option.map_eq_some_iff.1 hstep
  have hnone : observed.noteOf rule event = none := by
    cases event with
    | heartbeat peerAddr now => rfl
    | udp event =>
        cases event with
        | scan i nowMs => rfl
        | reap => rfl
        | _ => exact hreaper.elim
  simp [hnone]

/--
Behind a reaper pass, as at any other time, no announcement older than its time
to live is kept exactly when none of that age was standing before the pass.
-/
theorem stash_bounded_iff {events pass : List SystemEvent} {done : Observed}
    (hrun : run (Observed.step rule) (start peer workers) events = some observed)
    (hpass : ∀ event ∈ pass, IsReaperStep event)
    (hdone : run (Observed.step rule) observed pass = some done) (nowMs : Nat) :
    (∀ i from_ client atMs, done.system.proxy.stash i from_ = some (client, atMs) →
        nowMs - atMs ≤ pendingProxyTtlMs) ↔
      ∀ i from_ client atMs, Standing observed.notes i from_ client atMs →
        nowMs - atMs ≤ pendingProxyTtlMs := by
  have hguard : Along (Observed.step rule) (fun _ => IsReaperStep) observed pass :=
    along_of_mem (Observed.step rule) hpass observed
  have hafter : Tracks done ∧ done.notes = observed.notes := by
    refine run_invariant_of_guard (Observed.step rule)
      (P := fun state => Tracks state ∧ state.notes = observed.notes) ?_
      ⟨tracks_run hrun, rfl⟩ hguard hdone
    rintro state event next ⟨htracks, hnotes⟩ hreaper hstep
    exact ⟨htracks.step hstep, (notes_reaperStep hreaper hstep).trans hnotes⟩
  obtain ⟨htracks, hnotes⟩ := hafter
  constructor
  · intro hbounded i from_ client atMs hstanding
    exact hbounded i from_ client atMs ((htracks i from_ client atMs).2 (hnotes ▸ hstanding))
  · intro hfresh i from_ client atMs hkept
    exact hfresh i from_ client atMs (hnotes ▸ (htracks i from_ client atMs).1 hkept)

end Observed

namespace Observed

def relayRule : UdpRule :=
  ⟨443, ⟨.v4 0x0a000001, 443⟩, true, true, 8, 30000, 1, fun _ => 0, fun _ => Nat.zero_lt_one⟩

def gatewaySource : SocketAddr := ⟨.v4 0xc6336401, 50001⟩

def visitor : SocketAddr := ⟨.v4 0xcb007107, 54321⟩

def announceVisitor (nowMs : Nat) : SystemEvent :=
  .udp (.datagram 0 gatewaySource (encodeV2 visitor ⟨.v4 0xc6336401, 443⟩) nowMs)

def openingVisit : List SystemEvent :=
  .udp .firstBorrow :: movesTo home ++
    [announceVisitor 0, .udp (.datagram 0 gatewaySource [1] 1)]

def reopeningVisit : List SystemEvent :=
  openingVisit ++ .udp (.finishCreate 0 true 1) :: movesTo moved ++
    [.udp (.datagram 0 gatewaySource [2] 2)]

def HeaderNames (events : List SystemEvent) (nowMs : Nat) (client : SocketAddr) : Prop :=
  ∃ observed next target header payload,
    run (step relayRule) (start (.new none) 1) events = some observed ∧
    observed.step relayRule (.udp (.finishCreate 0 true nowMs)) = some next ∧
    next.system.proxy.forwarded =
      observed.system.proxy.forwarded ++ [(target, header), (target, payload)] ∧
    lastAnnounced observed.notes gatewaySource = some visitor ∧
    (decodeV2FromDatagram header).map ProxyEndpoints.client = some client

theorem header_names_visitor : HeaderNames openingVisit 1 visitor := by
  obtain ⟨observed, next, target, header, payload, hrun, hstep, hsent, hlast, hnotes, hopening⟩ :
      ∃ observed next target header payload,
        run (step relayRule) (start (.new none) 1) openingVisit = some observed ∧
        observed.step relayRule (.udp (.finishCreate 0 true 1)) = some next ∧
        next.system.proxy.forwarded =
          observed.system.proxy.forwarded ++ [(target, header), (target, payload)] ∧
        lastAnnounced observed.notes gatewaySource = some visitor ∧
        observed.notes = [.announced 0 gatewaySource visitor 0 true] ∧
        (observed.system.proxy.workers[0]?).bind UdpWorker.creating =
          some ⟨gatewaySource, ⟨home.ip, 443⟩, [1]⟩ :=
    ⟨_, _, _, _, _, rfl, rfl, rfl, rfl, rfl, rfl⟩
  obtain ⟨i, connects, nowMs, worker, creation, hevent, hworker, hcreating, hnames⟩ :=
    header_names_announced_iff hrun hstep hsent
  cases hevent
  rw [hworker, Option.bind_some, hcreating] at hopening
  cases hopening
  refine ⟨observed, next, target, header, payload, hrun, hstep, hsent, hlast, ?_⟩
  exact (hnames visitor hlast).2 ⟨rfl, .inl ⟨0, ⟨[], [], hnotes, nofun⟩, by decide⟩⟩

/-- The second flow of the connection is announced as the gateway's own. -/
theorem reopened_flow_names_gateway : HeaderNames reopeningVisit 2 gatewaySource :=
  ⟨_, _, _, _, _, rfl, rfl, rfl, rfl, rfl⟩

def BoundedAfterPass (events : List SystemEvent) (nowMs : Nat) : Prop :=
  ∃ observed done, run (step relayRule) (start (.new none) 1) events = some observed ∧
    run (step relayRule) observed [.udp (.scan 0 nowMs)] = some done ∧
    done.system.proxy.victims = [] ∧
    ∀ i from_ client atMs, done.system.proxy.stash i from_ = some (client, atMs) →
      nowMs - atMs ≤ pendingProxyTtlMs

theorem fresh_announcement_bounded : BoundedAfterPass [announceVisitor 0] 3000 := by
  obtain ⟨observed, done, hrun, hdone, hvictims, hnotes⟩ :
      ∃ observed done, run (step relayRule) (start (.new none) 1) [announceVisitor 0] =
          some observed ∧
        run (step relayRule) observed [.udp (.scan 0 3000)] = some done ∧
        done.system.proxy.victims = [] ∧
        observed.notes = [] ++ [.announced 0 gatewaySource visitor 0 true] :=
    ⟨_, _, rfl, rfl, rfl, rfl⟩
  refine ⟨observed, done, hrun, hdone, hvictims, ?_⟩
  refine (stash_bounded_iff hrun (fun event hevent => ?_) hdone 3000).2 ?_
  · rw [List.mem_singleton.1 hevent]
    trivial
  · intro i from_ client atMs hstanding
    rw [hnotes] at hstanding
    rcases standing_concat_iff.1 hstanding with hnote | ⟨-, hnil⟩
    · cases hnote
      decide
    · exact absurd hnil not_standing_nil

/-- No datagram follows the announcement, and six seconds later the reaper leaves it there. -/
theorem orphaned_announcement_kept :
    ∃ observed done, run (step relayRule) (start (.new none) 1) [announceVisitor 0] =
        some observed ∧
      run (step relayRule) observed [.udp (.scan 0 6000)] = some done ∧
      done.system.proxy.victims = [] ∧
      done.system.proxy.stash 0 gatewaySource = some (visitor, 0) ∧
      pendingProxyTtlMs < 6000 - 0 :=
  ⟨_, _, rfl, rfl, rfl, rfl, by decide⟩

end Observed

end Yggdrasil.Proxy
