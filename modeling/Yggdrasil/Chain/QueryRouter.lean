import Yggdrasil.Foundation.Keyed
import Yggdrasil.Foundation.Run
import Yggdrasil.Chain.Walk
import Yggdrasil.Ratatoskr.ControlFrame

/-!
# Queries and their replies

Hop queries and canary arms draw their ids from one counter and wait in two
tables, one for each kind of reply.  A call registers, sends its query, waits
for the acknowledgement and then for the reply; on every other way out it takes
its registration back.  Replies come with any id, of either kind, any number of
times.

A waiter is known by the number of its call, which stands for the sending half
of its oneshot in the table.  What `resolve` and `cancel` do under a lock is one
step; everything else may fall between any two steps of a call.
-/

namespace Yggdrasil.Chain

open Foundation Ratatoskr

inductive QueryKind where
  | chainHop
  | canary
  deriving DecidableEq, Repr

inductive QueryReply (View : Type) where
  | chainHop (reply : ChainHopReply View)
  | canary (reply : CanaryReply)

namespace QueryReply

variable {View : Type}

def kind : QueryReply View → QueryKind
  | .chainHop _ => .chainHop
  | .canary _ => .canary

def queryId : QueryReply View → UInt32
  | .chainHop reply => reply.queryId
  | .canary reply => reply.queryId

end QueryReply

structure QueryRouter where
  nextId : UInt32
  pendingChainHop : AList (fun _ : UInt32 => Nat)
  pendingCanary : AList (fun _ : UInt32 => Nat)

namespace QueryRouter

def new : QueryRouter := ⟨1, ∅, ∅⟩

variable (router : QueryRouter)

def pending : QueryKind → AList (fun _ : UInt32 => Nat)
  | .chainHop => router.pendingChainHop
  | .canary => router.pendingCanary

def setPending (kind : QueryKind) (table : AList (fun _ : UInt32 => Nat)) : QueryRouter :=
  match kind with
  | .chainHop => { router with pendingChainHop := table }
  | .canary => { router with pendingCanary := table }

def fetchAdd : QueryRouter := { router with nextId := router.nextId + 1 }

def insertWaiter (kind : QueryKind) (queryId : UInt32) (waiter : Nat) : QueryRouter :=
  router.setPending kind ((router.pending kind).insert queryId waiter)

def forget (kind : QueryKind) (queryId : UInt32) : QueryRouter :=
  router.setPending kind ((router.pending kind).erase queryId)

def cancel (queryId : UInt32) : QueryRouter := router.forget .chainHop queryId

def cancelCanary (queryId : UInt32) : QueryRouter := router.forget .canary queryId

@[simp] theorem nextId_setPending (kind : QueryKind) (table : AList (fun _ : UInt32 => Nat)) :
    (router.setPending kind table).nextId = router.nextId := by
  cases kind <;> rfl

@[simp] theorem pending_setPending_self (kind : QueryKind) (table : AList (fun _ : UInt32 => Nat)) :
    (router.setPending kind table).pending kind = table := by
  cases kind <;> rfl

theorem pending_setPending_ne {kind other : QueryKind} (h : other ≠ kind)
    (table : AList (fun _ : UInt32 => Nat)) :
    (router.setPending kind table).pending other = router.pending other := by
  cases kind <;> cases other <;> first | rfl | exact absurd rfl h

variable {router} {kind other : QueryKind} {queryId otherId : UInt32} {waiter found : Nat}

theorem of_lookup_insertWaiter
    (h : ((router.insertWaiter kind queryId waiter).pending other).lookup otherId = some found) :
    (other = kind ∧ otherId = queryId ∧ found = waiter) ∨
      (router.pending other).lookup otherId = some found := by
  by_cases hkind : other = kind
  · subst hkind
    rw [insertWaiter, pending_setPending_self] at h
    rcases of_lookup_insert h with ⟨hid, hfound⟩ | hold
    · exact .inl ⟨rfl, hid, hfound⟩
    · exact .inr hold
  · rw [insertWaiter, pending_setPending_ne router hkind] at h
    exact .inr h

theorem of_lookup_forget
    (h : ((router.forget kind queryId).pending other).lookup otherId = some found) :
    ¬(other = kind ∧ otherId = queryId) ∧ (router.pending other).lookup otherId = some found := by
  by_cases hkind : other = kind
  · subst hkind
    rw [forget, pending_setPending_self] at h
    obtain ⟨hid, hold⟩ := of_lookup_erase h
    exact ⟨fun hsame => hid hsame.2, hold⟩
  · rw [forget, pending_setPending_ne router hkind] at h
    exact ⟨fun hsame => hkind hsame.1, h⟩

end QueryRouter

inductive QueryPhase (View : Type) where
  /-- It has drawn its id and is not in a table yet. -/
  | allocated
  | registered
  | awaitingAck
  | awaitingReply
  /-- About to take its registration back; the receiving half may be gone already. -/
  | cancelling (error : QueryError) (listening : Bool)
  | returned (result : Except QueryError (QueryReply View))
  /-- Its future was dropped while it waited. -/
  | abandoned

namespace QueryPhase

variable {View : Type}

def isListening : QueryPhase View → Bool
  | .allocated | .registered | .awaitingAck | .awaitingReply => true
  | .cancelling _ listening => listening
  | .returned _ | .abandoned => false

def MayWait : QueryPhase View → Prop
  | .allocated | .returned _ => False
  | _ => True

end QueryPhase

structure QueryCall (View : Type) where
  kind : QueryKind
  queryId : UInt32
  phase : QueryPhase View
  received : Option (QueryReply View)

structure QuerySystem (View : Type) where
  router : QueryRouter
  calls : List (QueryCall View)
  delivered : List (QueryReply View × Nat)

structure ReplyHandler (View : Type) where
  decodeChainHopReply : Bytes → Option (ChainHopReply View)
  decodeCanaryReply : Bytes → Option CanaryReply
  inner : Option (UInt8 → Bytes → AckStatus)

inductive QueryEvent where
  | begin (kind : QueryKind)
  | insert (call : Nat)
  | encodeFailed (call : Nat) (error : String)
  | sendFailed (call : Nat)
  | sent (call : Nat)
  | ackTimeout (call : Nat)
  | ackDropped (call : Nat)
  | ackRefused (call : Nat) (error : String)
  | acked (call : Nat)
  | replyReceived (call : Nat)
  | replyClosed (call : Nat)
  | replyTimeout (call : Nat)
  | cancel (call : Nat)
  | abandon (call : Nat)
  | inbound (bodyType : UInt8) (body : Bytes)
  deriving DecidableEq, Repr

namespace QuerySystem

variable {View : Type}

def start : QuerySystem View := ⟨.new, [], []⟩

def setPhase (system : QuerySystem View) (i : Nat) (phase : QueryPhase View) : QuerySystem View :=
  { system with calls := system.calls.modify i (fun call => { call with phase := phase }) }

def advance (system : QuerySystem View) (i : Nat)
    (next : QueryPhase View → Option (QueryPhase View)) : Option (QuerySystem View) :=
  (system.calls[i]?).bind fun call =>
    (next call.phase).map fun phase => system.setPhase i phase

def receive (system : QuerySystem View) (i : Nat) (reply : QueryReply View) : QuerySystem View :=
  { system with
    calls := system.calls.modify i (fun call => { call with received := some reply })
    delivered := system.delivered ++ [(reply, i)] }

/-- The entry is used up whether or not its waiter still listens. -/
def resolveReply (system : QuerySystem View) (reply : QueryReply View) :
    QuerySystem View × Bool :=
  match (system.router.pending reply.kind).lookup reply.queryId with
  | none => (system, false)
  | some i =>
      let system := { system with router := system.router.forget reply.kind reply.queryId }
      if (system.calls[i]?).any (fun call => call.phase.isListening) then
        (system.receive i reply, true)
      else (system, false)

def resolve (system : QuerySystem View) (reply : ChainHopReply View) : QuerySystem View × Bool :=
  system.resolveReply (.chainHop reply)

def resolveCanary (system : QuerySystem View) (reply : CanaryReply) : QuerySystem View × Bool :=
  system.resolveReply (.canary reply)

def handleBody (handler : ReplyHandler View) (system : QuerySystem View) (bodyType : UInt8)
    (body : Bytes) : QuerySystem View × AckStatus :=
  if bodyType = ControlBodyType.chainHopReply.asByte then
    match handler.decodeChainHopReply body with
    | some reply => ((system.resolve reply).1, .ok)
    | none => (system, .unknown)
  else if bodyType = ControlBodyType.canaryReply.asByte then
    match handler.decodeCanaryReply body with
    | some reply => ((system.resolveCanary reply).1, .ok)
    | none => (system, .unknown)
  else
    match handler.inner with
    | some inner => (system, inner bodyType body)
    | none => (system, .unknown)

def step (handler : ReplyHandler View) (system : QuerySystem View) :
    QueryEvent → Option (QuerySystem View)
  | .begin kind =>
      some { system with
        router := system.router.fetchAdd
        calls := system.calls ++ [⟨kind, system.router.nextId, .allocated, none⟩] }
  | .insert i =>
      (system.calls[i]?).bind fun call =>
        match call.phase with
        | .allocated =>
            some { system.setPhase i .registered with
              router := system.router.insertWaiter call.kind call.queryId i }
        | _ => none
  | .encodeFailed i error =>
      -- the registration stays behind
      system.advance i fun
        | .registered => some (.returned (.error (.encode error)))
        | _ => none
  | .sendFailed i =>
      system.advance i fun
        | .registered => some (.cancelling .clientDown true)
        | _ => none
  | .sent i =>
      system.advance i fun
        | .registered => some .awaitingAck
        | _ => none
  | .ackTimeout i =>
      system.advance i fun
        | .awaitingAck => some (.cancelling .timeout true)
        | _ => none
  | .ackDropped i =>
      system.advance i fun
        | .awaitingAck => some (.cancelling .clientDown true)
        | _ => none
  | .ackRefused i error =>
      system.advance i fun
        | .awaitingAck => some (.cancelling (.send error) true)
        | _ => none
  | .acked i =>
      system.advance i fun
        | .awaitingAck => some .awaitingReply
        | _ => none
  | .replyReceived i =>
      (system.calls[i]?).bind fun call =>
        call.received.bind fun reply =>
          system.advance i fun
            | .awaitingReply => some (.returned (.ok reply))
            | _ => none
  | .replyClosed i =>
      -- the sending half is gone without having been used
      (system.calls[i]?).bind fun call =>
        if call.received.isNone ∧
            (system.router.pending call.kind).lookup call.queryId ≠ some i then
          system.advance i fun
            | .awaitingReply => some (.returned (.error .clientDown))
            | _ => none
        else none
  | .replyTimeout i =>
      -- the receiving half is dropped before the registration is taken back
      system.advance i fun
        | .awaitingReply => some (.cancelling .timeout false)
        | _ => none
  | .cancel i =>
      (system.calls[i]?).bind fun call =>
        match call.phase with
        | .cancelling error _ =>
            some { system.setPhase i (.returned (.error error)) with
              router :=
                match call.kind with
                | .chainHop => system.router.cancel call.queryId
                | .canary => system.router.cancelCanary call.queryId }
        | _ => none
  | .abandon i =>
      system.advance i fun
        | .awaitingAck | .awaitingReply => some .abandoned
        | _ => none
  | .inbound bodyType body => some (system.handleBody handler bodyType body).1

/-! ## Entries belong to calls that wait -/

structure Correlated (system : QuerySystem View) : Prop where
  nextId : system.router.nextId = UInt32.ofNat (system.calls.length + 1)
  ids : ∀ (i : Nat) (call : QueryCall View), system.calls[i]? = some call →
    call.queryId = UInt32.ofNat (i + 1)
  waiting : ∀ kind queryId i, (system.router.pending kind).lookup queryId = some i →
    ∃ call, system.calls[i]? = some call ∧ call.kind = kind ∧ call.queryId = queryId ∧
      call.received = none ∧ call.phase.MayWait
  allocated : ∀ (i : Nat) (call : QueryCall View), system.calls[i]? = some call →
    call.phase = .allocated → call.received = none
  delivered : ∀ reply i, (reply, i) ∈ system.delivered → ∃ call, system.calls[i]? = some call ∧
    call.kind = reply.kind ∧ call.queryId = reply.queryId ∧ call.received = some reply
  received : ∀ (i : Nat) (call : QueryCall View) reply, system.calls[i]? = some call →
    call.received = some reply → (reply, i) ∈ system.delivered
  answered : ∀ (i : Nat) (call : QueryCall View) reply, system.calls[i]? = some call →
    call.phase = .returned (.ok reply) → call.received = some reply
  once : (system.delivered.map Prod.snd).Nodup

theorem correlated_start : Correlated (start : QuerySystem View) where
  nextId := rfl
  ids _ _ hcall := nomatch hcall
  waiting kind queryId i hentry := by
    cases kind <;> exact nomatch (AList.lookup_empty queryId).symm.trans hentry
  allocated _ _ hcall := nomatch hcall
  delivered _ _ hmem := nomatch hmem
  received _ _ _ hcall := nomatch hcall
  answered _ _ _ hcall := nomatch hcall
  once := List.nodup_nil

section

variable {handler : ReplyHandler View} {system next : QuerySystem View} {i j : Nat}
  {call : QueryCall View} {phase : QueryPhase View}

theorem getElem?_setPhase (h : system.calls[j]? = some call) :
    (system.setPhase i phase).calls[j]? =
      some { call with phase := if i = j then phase else call.phase } := by
  rw [setPhase, List.getElem?_modify, h]
  by_cases hsame : i = j
  · rw [if_pos hsame]
    exact congrArg some (if_pos hsame)
  · rw [if_neg hsame]
    exact congrArg some (if_neg hsame)

theorem advance_eq_some {move : QueryPhase View → Option (QueryPhase View)}
    (h : system.advance i move = some next) :
    ∃ call phase, system.calls[i]? = some call ∧ move call.phase = some phase ∧
      next = system.setPhase i phase := by
  obtain ⟨call, hcall, h⟩ := Option.bind_eq_some_iff.1 h
  obtain ⟨phase, hphase, rfl⟩ := Option.map_eq_some_iff.1 h
  exact ⟨call, phase, hcall, hphase, rfl⟩

namespace Correlated

theorem not_pending (h : Correlated system) (hcall : system.calls[i]? = some call)
    (hdone : call.received ≠ none ∨ ¬call.phase.MayWait) (kind : QueryKind) (queryId : UInt32) :
    (system.router.pending kind).lookup queryId ≠ some i := by
  intro hentry
  obtain ⟨found, hfound, -, -, hreceived, hwaits⟩ := h.waiting kind queryId i hentry
  cases hcall.symm.trans hfound
  rcases hdone with hdone | hdone
  · exact hdone hreceived
  · exact hdone hwaits

theorem pending_key (h : Correlated system) (hcall : system.calls[i]? = some call)
    {kind : QueryKind} {queryId : UInt32}
    (hentry : (system.router.pending kind).lookup queryId = some i) :
    kind = call.kind ∧ queryId = call.queryId := by
  obtain ⟨found, hfound, hkind, hid, -⟩ := h.waiting kind queryId i hentry
  cases hcall.symm.trans hfound
  exact ⟨hkind.symm, hid.symm⟩

theorem setPhase (h : Correlated system) (hcall : system.calls[i]? = some call)
    (hwaits : ∀ kind queryId, (system.router.pending kind).lookup queryId = some i →
      phase.MayWait)
    (hallocated : phase ≠ .allocated)
    (hanswered : ∀ reply, phase = .returned (.ok reply) → call.received = some reply) :
    Correlated (system.setPhase i phase) := by
  refine ⟨?_, ?_, ?_, ?_, ?_, ?_, ?_, h.once⟩
  · rw [QuerySystem.setPhase, List.length_modify]
    exact h.nextId
  · intro j changed hchanged
    obtain ⟨before, hbefore, ⟨-, rfl⟩ | rfl⟩ := of_getElem?_modify hchanged
    · exact h.ids j before hbefore
    · exact h.ids j changed hbefore
  · intro kind queryId j hentry
    obtain ⟨before, hbefore, hkind, hid, hreceived, hmay⟩ := h.waiting kind queryId j hentry
    refine ⟨_, getElem?_setPhase hbefore, hkind, hid, hreceived, ?_⟩
    by_cases hsame : i = j
    · subst hsame
      rw [if_pos rfl]
      exact hwaits kind queryId hentry
    · rw [if_neg hsame]
      exact hmay
  · intro j changed hchanged hphase
    obtain ⟨before, hbefore, ⟨-, rfl⟩ | rfl⟩ := of_getElem?_modify hchanged
    · exact absurd hphase hallocated
    · exact h.allocated j changed hbefore hphase
  · intro reply j hmem
    obtain ⟨before, hbefore, hkind, hid, hreceived⟩ := h.delivered reply j hmem
    exact ⟨_, getElem?_setPhase hbefore, hkind, hid, hreceived⟩
  · intro j changed reply hchanged hreceived
    obtain ⟨before, hbefore, ⟨-, rfl⟩ | rfl⟩ := of_getElem?_modify hchanged
    · exact h.received j before reply hbefore hreceived
    · exact h.received j changed reply hbefore hreceived
  · intro j changed reply hchanged hphase
    obtain ⟨before, hbefore, ⟨rfl, rfl⟩ | rfl⟩ := of_getElem?_modify hchanged
    · cases hcall.symm.trans hbefore
      exact hanswered reply hphase
    · exact h.answered j changed reply hbefore hphase

theorem begin (h : Correlated system) (kind : QueryKind) :
    Correlated { system with
      router := system.router.fetchAdd
      calls := system.calls ++ [⟨kind, system.router.nextId, .allocated, none⟩] } := by
  have hold : ∀ {j call}, system.calls[j]? = some call →
      (system.calls ++ [⟨kind, system.router.nextId, .allocated, none⟩])[j]? = some call :=
    fun hcall => (List.getElem?_append_left (List.getElem?_eq_some_iff.1 hcall).1).trans hcall
  refine ⟨?_, ?_, ?_, ?_, ?_, ?_, ?_, h.once⟩
  · dsimp only
    rw [QueryRouter.fetchAdd, h.nextId, List.length_append, List.length_singleton]
    simp [UInt32.ofNat_add]
  · intro j call hcall
    rcases of_getElem?_concat hcall with hcall | ⟨rfl, rfl⟩
    · exact h.ids j call hcall
    · exact h.nextId
  · intro kind queryId j hentry
    have hentry' : (system.router.pending kind).lookup queryId = some j := by
      cases kind <;> exact hentry
    obtain ⟨call, hcall, hrest⟩ := h.waiting kind queryId j hentry'
    exact ⟨call, hold hcall, hrest⟩
  · intro j call hcall hphase
    rcases of_getElem?_concat hcall with hcall | ⟨rfl, rfl⟩
    · exact h.allocated j call hcall hphase
    · rfl
  · intro reply j hmem
    obtain ⟨call, hcall, hrest⟩ := h.delivered reply j hmem
    exact ⟨call, hold hcall, hrest⟩
  · intro j call reply hcall hreceived
    rcases of_getElem?_concat hcall with hcall | ⟨rfl, rfl⟩
    · exact h.received j call reply hcall hreceived
    · cases hreceived
  · intro j call reply hcall hphase
    rcases of_getElem?_concat hcall with hcall | ⟨rfl, rfl⟩
    · exact h.answered j call reply hcall hphase
    · cases hphase

theorem forget (h : Correlated system) (kind : QueryKind) (queryId : UInt32) :
    Correlated { system with router := system.router.forget kind queryId } := by
  refine ⟨?_, h.ids, ?_, h.allocated, h.delivered, h.received, h.answered, h.once⟩
  · rw [← h.nextId]
    exact QueryRouter.nextId_setPending _ _ _
  · intro other otherId j hentry
    exact h.waiting other otherId j (QueryRouter.of_lookup_forget hentry).2

theorem insert (h : Correlated system) (hcall : system.calls[i]? = some call)
    (hphase : call.phase = .allocated) :
    Correlated { system.setPhase i .registered with
      router := system.router.insertWaiter call.kind call.queryId i } := by
  have hnone : ∀ kind queryId, (system.router.pending kind).lookup queryId ≠ some i :=
    h.not_pending hcall (.inr (by rw [hphase]; exact id))
  have hregistered : Correlated (system.setPhase i .registered) :=
    h.setPhase hcall (fun kind queryId hentry => absurd hentry (hnone kind queryId)) nofun nofun
  refine ⟨?_, hregistered.ids, ?_, hregistered.allocated, hregistered.delivered,
    hregistered.received, hregistered.answered, hregistered.once⟩
  · rw [← hregistered.nextId]
    exact QueryRouter.nextId_setPending _ _ _
  · intro kind queryId j hentry
    rcases QueryRouter.of_lookup_insertWaiter hentry with ⟨rfl, rfl, rfl⟩ | hold
    · have hunused := h.allocated j call hcall hphase
      refine ⟨_, getElem?_setPhase hcall, rfl, rfl, hunused, ?_⟩
      rw [if_pos rfl]
      trivial
    · exact hregistered.waiting kind queryId j hold

theorem receive (h : Correlated system) {reply : QueryReply View}
    (hcall : system.calls[i]? = some call) (hkind : call.kind = reply.kind)
    (hid : call.queryId = reply.queryId) (hunused : call.received = none)
    (hnone : ∀ kind queryId, (system.router.pending kind).lookup queryId ≠ some i)
    (hphase : call.phase ≠ .allocated) :
    Correlated (system.receive i reply) := by
  have hnew : i ∉ system.delivered.map Prod.snd := by
    intro hmem
    obtain ⟨⟨earlier, _⟩, hearlier, rfl⟩ := List.mem_map.1 hmem
    obtain ⟨found, hfound, -, -, hreceived⟩ := h.delivered earlier _ hearlier
    cases hcall.symm.trans hfound
    cases hunused.symm.trans hreceived
  have hself : (system.receive i reply).calls[i]? = some { call with received := some reply } := by
    rw [QuerySystem.receive, List.getElem?_modify_eq, hcall]
    rfl
  have hothers : ∀ {j}, i ≠ j → (system.receive i reply).calls[j]? = system.calls[j]? :=
    fun hne => List.getElem?_modify_ne _ _ hne
  refine ⟨?_, ?_, ?_, ?_, ?_, ?_, ?_, ?_⟩
  · rw [QuerySystem.receive, List.length_modify]
    exact h.nextId
  · intro j changed hchanged
    obtain ⟨before, hbefore, ⟨-, rfl⟩ | rfl⟩ := of_getElem?_modify hchanged
    · exact h.ids j before hbefore
    · exact h.ids j changed hbefore
  · intro kind queryId j hentry
    have hne : i ≠ j := by
      rintro rfl
      exact hnone kind queryId hentry
    rw [hothers hne]
    exact h.waiting kind queryId j hentry
  · intro j changed hchanged hallocated
    obtain ⟨before, hbefore, ⟨rfl, rfl⟩ | rfl⟩ := of_getElem?_modify hchanged
    · cases hcall.symm.trans hbefore
      exact absurd hallocated hphase
    · exact h.allocated j changed hbefore hallocated
  · intro other j hmem
    rcases List.mem_append.1 hmem with hmem | hmem
    · have hne : i ≠ j := by
        rintro rfl
        exact hnew (List.mem_map_of_mem (f := Prod.snd) hmem)
      rw [hothers hne]
      exact h.delivered other j hmem
    · cases List.mem_singleton.1 hmem
      exact ⟨_, hself, hkind, hid, rfl⟩
  · intro j changed other hchanged hreceived
    obtain ⟨before, hbefore, ⟨rfl, rfl⟩ | rfl⟩ := of_getElem?_modify hchanged
    · cases hreceived
      exact List.mem_append_right _ (List.mem_singleton_self _)
    · exact List.mem_append_left _ (h.received j changed other hbefore hreceived)
  · intro j changed other hchanged hanswered
    obtain ⟨before, hbefore, ⟨rfl, rfl⟩ | rfl⟩ := of_getElem?_modify hchanged
    · -- a call that has returned with a reply has received one
      cases hcall.symm.trans hbefore
      have hearlier := h.answered i _ other hcall hanswered
      cases hunused.symm.trans hearlier
    · exact h.answered j changed other hbefore hanswered
  · rw [QuerySystem.receive, List.map_append]
    exact List.nodup_append_comm.1 (List.nodup_cons.2 ⟨hnew, h.once⟩)

theorem resolveReply (h : Correlated system) (reply : QueryReply View) :
    Correlated (system.resolveReply reply).1 := by
  unfold QuerySystem.resolveReply
  split
  · exact h
  · rename_i i hentry
    obtain ⟨call, hcall, hkind, hid, hunused, hwaits⟩ := h.waiting _ _ i hentry
    have hforgot := h.forget reply.kind reply.queryId
    dsimp only
    split_ifs with hlistens
    · refine hforgot.receive hcall hkind hid hunused ?_ ?_
      · intro kind queryId hstill
        obtain ⟨hother, hstill⟩ := QueryRouter.of_lookup_forget hstill
        obtain ⟨rfl, rfl⟩ := h.pending_key hcall hstill
        exact hother ⟨hkind, hid⟩
      · intro hphase
        rw [hphase] at hwaits
        exact hwaits
    · exact hforgot

theorem handleBody (h : Correlated system) (handler : ReplyHandler View) (bodyType : UInt8)
    (body : Bytes) : Correlated (system.handleBody handler bodyType body).1 := by
  unfold QuerySystem.handleBody
  split
  · split
    · exact h.resolveReply _
    · exact h
  · split
    · split
      · exact h.resolveReply _
      · exact h
    · split <;> exact h

theorem cancel (h : Correlated system) (hcall : system.calls[i]? = some call)
    (error : QueryError) :
    Correlated { system.setPhase i (.returned (.error error)) with
      router := system.router.forget call.kind call.queryId } := by
  have hforgot := h.forget call.kind call.queryId
  refine hforgot.setPhase hcall ?_ nofun nofun
  intro kind queryId hentry
  obtain ⟨hother, hentry⟩ := QueryRouter.of_lookup_forget hentry
  exact absurd (h.pending_key hcall hentry) hother

variable {move : QueryPhase View → Option (QueryPhase View)}

theorem advance_waiting (h : Correlated system)
    (hmove : ∀ {before after}, move before = some after → after.MayWait)
    (hnext : system.advance i move = some next) : Correlated next := by
  obtain ⟨call, phase, hcall, hphase, rfl⟩ := advance_eq_some hnext
  have hwaits := hmove hphase
  refine h.setPhase hcall (fun _ _ _ => hwaits) ?_ ?_
  · rintro rfl
    exact hwaits
  · rintro reply rfl
    exact hwaits.elim

theorem advance_returned (h : Correlated system) (result : Except QueryError (QueryReply View))
    (hcall : system.calls[i]? = some call)
    (hmove : ∀ {before after}, move before = some after → after = .returned result)
    (hnone : ∀ kind queryId, (system.router.pending kind).lookup queryId ≠ some i)
    (hresult : ∀ reply, result = .ok reply → call.received = some reply)
    (hnext : system.advance i move = some next) : Correlated next := by
  obtain ⟨found, phase, hfound, hphase, rfl⟩ := advance_eq_some hnext
  obtain rfl := hmove hphase
  refine h.setPhase hcall (fun kind queryId hentry => absurd hentry (hnone kind queryId)) nofun ?_
  intro reply hreply
  exact hresult reply (QueryPhase.returned.inj hreply)

theorem step (h : Correlated system) {event : QueryEvent}
    (hencodes : ∀ i error, event ≠ .encodeFailed i error)
    (hstep : system.step handler event = some next) : Correlated next := by
  cases event with
  | begin kind =>
    cases hstep
    exact h.begin kind
  | insert i =>
    obtain ⟨call, hcall, hstep⟩ := Option.bind_eq_some_iff.1 hstep
    split at hstep
    · rename_i hphase
      cases hstep
      exact h.insert hcall hphase
    · cases hstep
  | encodeFailed i error => exact absurd rfl (hencodes i error)
  | sendFailed i | sent i | ackTimeout i | ackDropped i | ackRefused i error | acked i
  | replyTimeout i =>
    dsimp only [QuerySystem.step] at hstep
    refine h.advance_waiting (fun {before after} hmove => ?_) hstep
    split at hmove
    · cases hmove
      trivial
    · cases hmove
  | abandon i =>
    dsimp only [QuerySystem.step] at hstep
    refine h.advance_waiting (fun {before after} hmove => ?_) hstep
    split at hmove
    · cases hmove
      trivial
    · cases hmove
      trivial
    · cases hmove
  | replyReceived i =>
    obtain ⟨call, hcall, hstep⟩ := Option.bind_eq_some_iff.1 hstep
    obtain ⟨reply, hreceived, hstep⟩ := Option.bind_eq_some_iff.1 hstep
    have hnone := h.not_pending hcall (.inl (by rw [hreceived]; exact nofun))
    refine h.advance_returned (.ok reply) hcall (fun {before after} hmove => ?_) hnone ?_ hstep
    · split at hmove
      · exact (Option.some.inj hmove).symm
      · cases hmove
    · intro other hother
      rw [hreceived, Except.ok.inj hother]
  | replyClosed i =>
    obtain ⟨call, hcall, hstep⟩ := Option.bind_eq_some_iff.1 hstep
    split_ifs at hstep with hclosed
    have hnone : ∀ kind queryId, (system.router.pending kind).lookup queryId ≠ some i := by
      intro kind queryId hentry
      obtain ⟨rfl, rfl⟩ := h.pending_key hcall hentry
      exact hclosed.2 hentry
    refine h.advance_returned (.error .clientDown) hcall (fun {before after} hmove => ?_) hnone
      ?_ hstep
    · split at hmove
      · exact (Option.some.inj hmove).symm
      · cases hmove
    · exact nofun
  | cancel i =>
    obtain ⟨call, hcall, hstep⟩ := Option.bind_eq_some_iff.1 hstep
    split at hstep
    · rename_i error listening hphase
      cases hstep
      have hcancel := h.cancel hcall error
      cases hkind : call.kind with
      | chainHop => rwa [hkind] at hcancel
      | canary => rwa [hkind] at hcancel
    · cases hstep
  | inbound bodyType body =>
    cases hstep
    exact h.handleBody handler bodyType body

theorem run {events : List QueryEvent}
    (hencodes : ∀ event ∈ events, ∀ i error, event ≠ .encodeFailed i error)
    (hrun : Foundation.run (QuerySystem.step handler) start events = some system) :
    Correlated system := by
  have hguard := along_of_mem (QuerySystem.step handler) hencodes start
  refine run_invariant_of_guard _ (P := Correlated) ?_ correlated_start hguard hrun
  intro before event after h hevent hstep
  exact h.step hevent hstep

/-! ## What correlation gives while the ids are not used up -/

theorem queryId_injective (h : Correlated system) (hfew : system.calls.length < 2 ^ 32)
    {other : QueryCall View} (hcall : system.calls[i]? = some call)
    (hother : system.calls[j]? = some other) (hsame : call.queryId = other.queryId) : i = j := by
  have hi := (List.getElem?_eq_some_iff.1 hcall).1
  have hj := (List.getElem?_eq_some_iff.1 hother).1
  rw [h.ids i call hcall, h.ids j other hother, ← UInt32.toNat_inj, UInt32.toNat_ofNat',
    UInt32.toNat_ofNat', Nat.mod_eq_of_lt (by omega), Nat.mod_eq_of_lt (by omega)] at hsame
  omega

theorem nodup_queryId (h : Correlated system) (hfew : system.calls.length < 2 ^ 32) :
    (system.calls.map (fun call => call.queryId)).Nodup := by
  rw [List.nodup_iff_getElem?_ne_getElem?]
  intro i j hij hj hsame
  rw [List.length_map] at hj
  rw [List.getElem?_map, List.getElem?_map, List.getElem?_eq_getElem (hij.trans hj),
    List.getElem?_eq_getElem hj] at hsame
  have := h.queryId_injective hfew (List.getElem?_eq_getElem (hij.trans hj))
    (List.getElem?_eq_getElem hj) (Option.some.inj hsame)
  omega

theorem nodup_delivered (h : Correlated system) (hfew : system.calls.length < 2 ^ 32) :
    (system.delivered.map (fun delivery => delivery.1.queryId)).Nodup := by
  apply List.Nodup.map_on _ h.once.of_map
  rintro ⟨reply, i⟩ hreply ⟨other, j⟩ hother hsame
  obtain ⟨call, hcall, -, hid, -⟩ := h.delivered reply i hreply
  obtain ⟨call', hcall', -, hid', -⟩ := h.delivered other j hother
  have hij := h.queryId_injective hfew hcall hcall' (hid.trans (hsame.trans hid'.symm))
  exact List.inj_on_of_nodup_map h.once hreply hother hij

theorem lookup_returned (h : Correlated system) (hfew : system.calls.length < 2 ^ 32)
    (hcall : system.calls[i]? = some call) {result : Except QueryError (QueryReply View)}
    (hphase : call.phase = .returned result) (kind : QueryKind) :
    (system.router.pending kind).lookup call.queryId = none := by
  cases hentry : (system.router.pending kind).lookup call.queryId with
  | none => rfl
  | some j =>
    obtain ⟨other, hother, -, hid, -, hwaits⟩ := h.waiting kind call.queryId j hentry
    obtain rfl := h.queryId_injective hfew hcall hother hid.symm
    cases hcall.symm.trans hother
    rw [hphase] at hwaits
    exact hwaits.elim

end Correlated

end

/-- Whatever queries, replies and timeouts come in between: a reply reaches the one waiter that
registered its id for its kind, and a call that has returned is in no table. -/
theorem query_correlation (handler : ReplyHandler View) {events : List QueryEvent}
    {system : QuerySystem View}
    (hencodes : ∀ event ∈ events, ∀ i error, event ≠ .encodeFailed i error)
    (hrun : Foundation.run (step handler) start events = some system)
    (hfew : system.calls.length < 2 ^ 32) :
    (∀ reply i, (reply, i) ∈ system.delivered →
      ∃ call, system.calls[i]? = some call ∧ call.phase ≠ .allocated ∧
        call.kind = reply.kind ∧ call.queryId = reply.queryId) ∧
    (system.delivered.map (fun delivery => delivery.1.queryId)).Nodup ∧
    (system.delivered.map Prod.snd).Nodup ∧
    (system.calls.map (fun call => call.queryId)).Nodup ∧
    ∀ i (call : QueryCall View) result, system.calls[i]? = some call →
      call.phase = .returned result →
      (∀ kind, (system.router.pending kind).lookup call.queryId = none) ∧
        ∀ reply, result = .ok reply → (reply, i) ∈ system.delivered := by
  have h := Correlated.run hencodes hrun
  refine ⟨?_, h.nodup_delivered hfew, h.once, h.nodup_queryId hfew, ?_⟩
  · intro reply i hmem
    obtain ⟨call, hcall, hkind, hid, hreceived⟩ := h.delivered reply i hmem
    refine ⟨call, hcall, ?_, hkind, hid⟩
    intro hphase
    exact nomatch (h.allocated i call hcall hphase).symm.trans hreceived
  · intro i call result hcall hphase
    refine ⟨h.lookup_returned hfew hcall hphase, ?_⟩
    rintro reply rfl
    exact h.received i call reply hcall (h.answered i call reply hcall hphase)

def emptyReplies : ReplyHandler Unit where
  decodeChainHopReply body := body.head?.map fun byte => ⟨byte.toUInt32, [], false, none⟩
  decodeCanaryReply body := body.head?.map fun byte => ⟨byte.toUInt32, [], false, none⟩
  inner := none

def crossedReplies : List QueryEvent :=
  [.begin .chainHop, .begin .canary, .insert 1, .insert 0, .sent 0, .sent 1, .acked 1, .acked 0,
    .inbound 4 [2], .inbound 6 [2], .inbound 6 [2], .replyTimeout 0, .inbound 4 [1], .cancel 0,
    .replyReceived 1]

theorem query_correlation_crossed :
    ∃ system, Foundation.run (step emptyReplies) start crossedReplies = some system ∧
      system.delivered = [(.canary ⟨2, [], false, none⟩, 1)] ∧
      (system.delivered.map (fun delivery => delivery.1.queryId)).Nodup ∧
      ∀ kind, (system.router.pending kind).lookup 1 = none := by
  obtain ⟨system, hrun, hcalls, hdelivered⟩ :
      ∃ system, Foundation.run (step emptyReplies) start crossedReplies = some system ∧
        system.calls = [⟨.chainHop, 1, .returned (.error .timeout), none⟩,
          ⟨.canary, 2, .returned (.ok (.canary ⟨2, [], false, none⟩)),
            some (.canary ⟨2, [], false, none⟩)⟩] ∧
        system.delivered = [(.canary ⟨2, [], false, none⟩, 1)] :=
    ⟨_, rfl, rfl, rfl⟩
  have hencodes : ∀ event ∈ crossedReplies, ∀ i error, event ≠ .encodeFailed i error := by
    simp [crossedReplies]
  obtain ⟨-, honce, -, -, hreturned⟩ :=
    query_correlation emptyReplies hencodes hrun (by rw [hcalls]; decide)
  exact ⟨system, hrun, hdelivered, honce, (hreturned 0 _ _ (by rw [hcalls]; rfl) rfl).1⟩

end QuerySystem

end Yggdrasil.Chain
