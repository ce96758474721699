import Yggdrasil.Chain.Orderly

/-!
# Publisher, chain client and upstream acceptor

A push passes from the publisher through the client's queue into the current
session, whose datagrams may be lost, delayed, reordered and duplicated.
Sessions end and begin anew; the queue outlives them.  The number of a push is
its completion handle.  Whenever a push is skipped as a duplicate, the state
records what the upstream had applied by then.
-/

namespace Yggdrasil.Chain

open Foundation Ratatoskr Heartbeat

structure Skip where
  body : Bytes
  /-- The last set the upstream applied in the session. -/
  applied : Option Bytes
  /-- The last set the upstream's supervisor was given at all. -/
  supervised : Option Bytes
  deriving DecidableEq, Repr

structure Publishing (Key ρ D σ χ : Type) where
  publisher : Publisher ρ D
  handed : Nat
  answer : Option SendResult
  queue : List (Nat × Bytes)
  link : Option (Link Key (Option Nat) (ChainAcceptor σ) χ)
  connected : Bool
  epoch : Nat
  seenEpoch : Nat
  /-- Some push since the last `Ok` ended without an answer of the upstream. -/
  unconfirmed : Bool
  skips : List Skip

namespace Publishing

variable {Key ρ D π σ χ : Type}

inductive Event (Key ρ σ χ : Type) where
  | setRules (set : ρ)
  | rulesChanged
  | epochBumped
  | answered
  | unanswered (outcome : PushOutcome)
  | dequeue (now : Nat)
  | sendOther (bodyType : UInt8) (body : Bytes) (now : Nat)
  | net (event : Chain.Event (Option Nat))
  | connect (client server : Session Key) (src : SocketAddr) (acceptor : ChainAcceptor σ)
      (handler : χ)
  | disconnect

def start (rules : ρ) : Publishing Key ρ D σ χ :=
  ⟨Publisher.start rules, 0, none, [], none, false, 0, 0, false, []⟩

def skip (state : Publishing Key ρ D σ χ) (body : Bytes) : Skip :=
  ⟨body, state.link.bind Link.lastApplied,
    state.link.bind (fun link => link.acceptor.appliedBodies.getLast?)⟩

def attempted (state : Publishing Key ρ D σ χ) : Attempt → Publishing Key ρ D σ χ
  | .handed body =>
      { state with
        handed := state.handed + 1
        answer := none
        queue := state.queue ++ [(state.handed + 1, body)] }
  | .dedup body => { state with skips := state.skip body :: state.skips }
  | .encodeError | .oversize _ => state

def unconfirmedAfter (before : Bool) : SendResult → Bool
  | .ok () => false
  | .error (.rejected _) | .error .unknownBodyType => before
  | .error (.timeout _) | .error .channelClosed => true

def outcomeOf (link : Link Key (Option Nat) (ChainAcceptor σ) χ) (token : Nat) :
    Option SendResult :=
  (link.resolved.find? (fun notice => notice.1.completion == some token)).map Prod.snd

def resolve (state : Publishing Key ρ D σ χ)
    (link : Link Key (Option Nat) (ChainAcceptor σ) χ) : Publishing Key ρ D σ χ :=
  { state with
    link := some link
    answer := state.answer.or (outcomeOf link state.handed) }

def atServer : Chain.Event (Option Nat) → Bool
  | .outbound _ | .deliverToServer _ _ => true
  | _ => false

variable (A : Aead Key) (P : Projection ρ D) (E : Derivation π σ) (handle : Dispatcher χ)

def onLink (state : Publishing Key ρ D σ χ) (event : Chain.Event (Option Nat)) :
    Option (Publishing Key ρ D σ χ) := do
  let link ← state.link
  let next ← Link.step A (ChainAcceptor.dispatch E) handle link event
  some (state.resolve next)

def step [DecidableEq D] (state : Publishing Key ρ D σ χ) :
    Event Key ρ σ χ → Option (Publishing Key ρ D σ χ)
  | .setRules set => some { state with publisher := { state.publisher with rules := set } }
  | .rulesChanged =>
      -- the select is biased: a pending epoch is handled first
      if state.publisher.inFlight.isSome ∨ state.seenEpoch ≠ state.epoch then none
      else
        let (publisher, attempt) := state.publisher.publish P
        some ({ state with publisher }.attempted attempt)
  | .epochBumped =>
      if state.publisher.inFlight.isSome ∨ state.seenEpoch = state.epoch then none
      else
        match state.publisher.epochBumped P with
        | (publisher, none) => some { state with publisher, seenEpoch := state.epoch }
        | (publisher, some attempt) =>
            some ({ state with publisher, seenEpoch := state.epoch }.attempted attempt)
  | .answered =>
      match state.publisher.inFlight, state.answer with
      | some body, some result =>
          some { state with
            publisher := state.publisher.finish P body (.resolved result)
            answer := none
            unconfirmed := unconfirmedAfter state.unconfirmed result }
      | _, _ => none
  | .unanswered outcome =>
      match state.publisher.inFlight, outcome with
      | none, _ | _, .resolved _ => none
      | some body, outcome =>
          some { state with
            publisher := state.publisher.finish P body outcome
            answer := none
            unconfirmed := true }
  | .dequeue now =>
      match state.queue with
      | [] => none
      | (token, body) :: queue =>
          if state.connected then
            onLink A E handle { state with queue }
              (.send ControlBodyType.predicateSetUpdate.asByte body (some token) now)
          else none
  | .sendOther bodyType body now =>
      if state.connected ∧ bodyType ≠ ControlBodyType.predicateSetUpdate.asByte then
        onLink A E handle state (.send bodyType body none now)
      else none
  | .net event =>
      if event.isSend = false ∧ (state.connected ∨ atServer event) then
        onLink A E handle state event
      else none
  | .connect client server src acceptor handler =>
      if state.connected then none
      else some { state with
        link := some (.start client server src acceptor handler)
        connected := true
        epoch := state.epoch + 1 }
  | .disconnect =>
      if state.connected then do
        let link ← state.link
        some { state.resolve link.close with connected := false }
      else none

/--
Sessions come from a handshake and are orderly, and a push is skipped only
while every push since the last `Ok` has been answered by the upstream.
-/
def Confirmed [DecidableEq D] (state : Publishing Key ρ D σ χ) : Event Key ρ σ χ → Prop
  | .rulesChanged => ∀ body, (state.publisher.publish P).2 = .dedup body →
      state.unconfirmed = false
  | .net event => ∀ link, state.link = some link →
      link.NoOvertaking event ∧ link.RepeatsAnswered event
  | .connect client server _ _ _ => Link.Crossed client server
  | _ => True

/-! ## The numbering of pushes -/

/-- A push in the session: only the last one handed over can be in flight. -/
structure Tracks (handed : Nat) (inFlight : Option Bytes) (queue : List (Nat × Bytes))
    (link : Link Key (Option Nat) (ChainAcceptor σ) χ) (envelope : ControlEnvelope)
    (token : Nat) : Prop where
  predicate : Link.isPredicate envelope = true
  enqueued : envelope ∈ link.enqueued
  le : token ≤ handed
  before : ∀ item ∈ queue, token < item.1
  newest : token = handed → link.IsNewest envelope
  body_eq : token = handed → ∀ body, inFlight = some body → envelope.body = body

structure Numbered (handed : Nat) (inFlight : Option Bytes) (queue : List (Nat × Bytes))
    (link : Option (Link Key (Option Nat) (ChainAcceptor σ) χ)) : Prop where
  sorted : queue.Pairwise (fun earlier later => earlier.1 < later.1)
  le : ∀ item ∈ queue, item.1 ≤ handed
  body_eq : ∀ item ∈ queue, item.1 = handed → ∀ body, inFlight = some body → item.2 = body
  tracks : ∀ session, link = some session → ∀ entry ∈ session.entries, ∀ token,
    entry.completion = some token → Tracks handed inFlight queue session entry.envelope token

variable {handed : Nat} {inFlight : Option Bytes} {queue : List (Nat × Bytes)}
variable {link next : Link Key (Option Nat) (ChainAcceptor σ) χ}
variable {session : Option (Link Key (Option Nat) (ChainAcceptor σ) χ)}

theorem Numbered.handOver (h : Numbered handed inFlight queue session) (body : Bytes) :
    Numbered (handed + 1) (some body) (queue ++ [(handed + 1, body)]) session where
  sorted := by
    refine pairwise_concat h.sorted ?_
    intro earlier hearlier
    exact Nat.lt_succ_of_le (h.le earlier hearlier)
  le := by
    refine forall_mem_concat ?_ (Nat.le_refl _)
    intro item hitem
    exact Nat.le_succ_of_le (h.le item hitem)
  body_eq := by
    intro item hitem hlast other hother
    rcases List.mem_append.1 hitem with hold | hnew
    · have := h.le item hold
      omega
    · rw [List.mem_singleton.1 hnew]
      exact Option.some.inj hother
  tracks := by
    intro link hlink entry hentry token htoken
    have hold := h.tracks link hlink entry hentry token htoken
    have hlt : token < handed + 1 := Nat.lt_succ_of_le hold.le
    refine ⟨hold.predicate, hold.enqueued, hlt.le, ?_, ?_, ?_⟩
    · intro item hitem
      rcases List.mem_append.1 hitem with hmem | hnew
      · exact hold.before item hmem
      · rw [List.mem_singleton.1 hnew]
        exact hlt
    · intro heq
      omega
    · intro heq
      omega

theorem Numbered.idle (h : Numbered handed inFlight queue session) :
    Numbered handed none queue session where
  sorted := h.sorted
  le := h.le
  body_eq := by simp
  tracks := by
    intro link hlink entry hentry token htoken
    have hold := h.tracks link hlink entry hentry token htoken
    exact ⟨hold.predicate, hold.enqueued, hold.le, hold.before, hold.newest, by simp⟩

theorem Numbered.extends (h : Numbered handed inFlight queue (some link))
    (hext : Link.Extends link next) : Numbered handed inFlight queue (some next) where
  sorted := h.sorted
  le := h.le
  body_eq := h.body_eq
  tracks := by
    rintro _ ⟨rfl⟩ entry hentry token htoken
    obtain ⟨old, hold, henvelope, hcompletion⟩ := hext.entries_from entry hentry
    have htracks := h.tracks link rfl old hold token (hcompletion.trans htoken)
    rw [henvelope] at htracks
    refine ⟨htracks.predicate, ?_, htracks.le, htracks.before, ?_, htracks.body_eq⟩
    · rw [hext.enqueued_eq]
      exact htracks.enqueued
    · unfold Link.IsNewest
      rw [hext.enqueued_eq]
      exact htracks.newest

variable {envelope : ControlEnvelope}

theorem Numbered.sendOther (h : Numbered handed inFlight queue (some link))
    (hnew : Link.Enqueues link envelope none next) (hother : Link.isPredicate envelope = false) :
    Numbered handed inFlight queue (some next) where
  sorted := h.sorted
  le := h.le
  body_eq := h.body_eq
  tracks := by
    rintro _ ⟨rfl⟩ entry hentry token htoken
    rcases hnew.entries_from entry hentry with hold | ⟨-, hnone⟩
    · have htracks := h.tracks link rfl entry hold token htoken
      refine ⟨htracks.predicate, ?_, htracks.le, htracks.before, ?_, htracks.body_eq⟩
      · rw [hnew.enqueued_eq]
        exact List.mem_append_left _ htracks.enqueued
      · intro hlast other hmem hpred
        rw [hnew.enqueued_eq] at hmem
        rcases List.mem_append.1 hmem with hmem | hself
        · exact htracks.newest hlast other hmem hpred
        · rw [List.mem_singleton.1 hself, hother] at hpred
          cases hpred
    · rw [hnone] at htoken
      cases htoken

theorem Numbered.dequeue {token : Nat} {body : Bytes} {seq : UInt32}
    (h : Numbered handed inFlight ((token, body) :: queue) (some link))
    (hnew : Link.Enqueues link ⟨seq, ControlBodyType.predicateSetUpdate.asByte, body⟩
      (some token) next) : Numbered handed inFlight queue (some next) where
  sorted := h.sorted.of_cons
  le := fun item hitem => h.le item (List.mem_cons_of_mem _ hitem)
  body_eq := fun item hitem => h.body_eq item (List.mem_cons_of_mem _ hitem)
  tracks := by
    have hhead : (token, body) ∈ (token, body) :: queue := List.mem_cons_self
    rintro _ ⟨rfl⟩ entry hentry token' htoken
    rcases hnew.entries_from entry hentry with hold | ⟨henvelope, hcompletion⟩
    · -- an older push: the head of the queue has a larger number
      have htracks := h.tracks link rfl entry hold token' htoken
      have hlt := htracks.before _ hhead
      have hle := h.le _ hhead
      have hne : token' ≠ handed := by omega
      refine ⟨htracks.predicate, ?_, htracks.le, ?_, fun heq => absurd heq hne,
        fun heq => absurd heq hne⟩
      · rw [hnew.enqueued_eq]
        exact List.mem_append_left _ htracks.enqueued
      · exact fun item hitem => htracks.before item (List.mem_cons_of_mem _ hitem)
    · obtain rfl : token = token' := Option.some.inj (hcompletion.symm.trans htoken)
      rw [henvelope]
      refine ⟨rfl, ?_, h.le _ hhead, ?_, ?_, h.body_eq _ hhead⟩
      · rw [hnew.enqueued_eq]
        exact List.mem_append_right _ (List.mem_singleton.2 rfl)
      · exact fun item hitem => List.rel_of_pairwise_cons h.sorted hitem
      · exact fun _ => hnew.isNewest

theorem Numbered.connect (h : Numbered handed inFlight queue session)
    (hfresh : link.entries = []) : Numbered handed inFlight queue (some link) where
  sorted := h.sorted
  le := h.le
  body_eq := h.body_eq
  tracks := by
    rintro _ ⟨rfl⟩ entry hentry
    rw [hfresh] at hentry
    cases hentry

theorem Numbered.queue_nil (h : Numbered handed inFlight queue (some link))
    {entry : OutboundEntry (Option Nat)} (hentry : entry ∈ link.entries)
    (hlast : entry.completion = some handed) : queue = [] := by
  cases queue with
  | nil => rfl
  | cons item rest =>
      have hbefore := (h.tracks link rfl entry hentry handed hlast).before item List.mem_cons_self
      have hle := h.le item List.mem_cons_self
      omega

/-! ## The remembered hash -/

/-- The remembered hash is that of the body the session has settled on. -/
def Remembered (digest : D) (handed : Nat) (inFlight : Option Bytes)
    (queue : List (Nat × Bytes))
    (session : Option (Link Key (Option Nat) (ChainAcceptor σ) χ)) : Prop :=
  ∃ link body, session = some link ∧ P.hash body = digest ∧
    link.Settled (inFlight.isSome ∧ queue = []) body ∧
    (queue = [] ∨ inFlight.isSome ∧ ∃ item, queue = [(handed, item)])

structure Consistent (state : Publishing Key ρ D σ χ) : Prop where
  numbered : Numbered state.handed state.publisher.inFlight state.queue state.link
  sessions : ∀ link, state.link = some link → Link.Orderly A link ∧
    ∃ before, link.acceptor.appliedBodies = before ++ link.applied
  epoch_le : state.seenEpoch ≤ state.epoch
  answered : ∀ result, state.answer = some result → state.seenEpoch = state.epoch →
    state.publisher.inFlight.isSome → ∃ link notice, state.link = some link ∧
      notice ∈ link.resolved ∧ notice.1.completion = some state.handed ∧ notice.2 = result
  remembered : ∀ digest, state.publisher.lastSentBodyHash = some digest →
    state.seenEpoch = state.epoch → state.unconfirmed = false →
    Remembered P digest state.handed state.publisher.inFlight state.queue state.link
  skips_sound : ∀ skip ∈ state.skips,
    skip.applied = some skip.body ∧ skip.supervised = some skip.body

variable {A P E handle} {state final : Publishing Key ρ D σ χ} {digest : D}

theorem Remembered.settled (h : Remembered P digest handed none queue session) :
    ∃ link body, session = some link ∧ P.hash body = digest ∧ link.Settled False body ∧
      queue = [] := by
  obtain ⟨link, body, hlink, hhash, hsettled, hqueue⟩ := h
  refine ⟨link, body, hlink, hhash, ?_, ?_⟩
  · apply hsettled.mono (List.Subset.refl _)
    intro envelope henvelope _ hanswer
    rcases hanswer henvelope with hrefused | ⟨⟨hsome, -⟩, -⟩
    · exact .inl hrefused
    · cases hsome
  · rcases hqueue with hempty | ⟨hsome, -⟩
    · exact hempty
    · cases hsome

theorem Remembered.handOver (h : Remembered P digest handed none queue session)
    (body : Bytes) :
    Remembered P digest (handed + 1) (some body) (queue ++ [(handed + 1, body)]) session := by
  obtain ⟨link, settled, hlink, hhash, hsettled, rfl⟩ := h.settled
  refine ⟨link, settled, hlink, hhash, ?_, .inr ⟨rfl, body, rfl⟩⟩
  apply hsettled.mono (List.Subset.refl _)
  intro envelope henvelope _ hanswer
  exact .inl ((hanswer henvelope).resolve_right (fun hawaited => hawaited.1))

theorem Remembered.extends (h : Remembered P digest handed inFlight queue (some link))
    (hext : Link.Extends link next) :
    Remembered P digest handed inFlight queue (some next) := by
  obtain ⟨_, body, ⟨rfl⟩, hhash, hsettled, hqueue⟩ := h
  exact ⟨next, body, rfl, hhash, hsettled.extends hext, hqueue⟩

theorem Remembered.sendOther (h : Remembered P digest handed inFlight queue (some link))
    (hnew : Link.Enqueues link envelope none next) (hother : Link.isPredicate envelope = false) :
    Remembered P digest handed inFlight queue (some next) := by
  obtain ⟨_, body, ⟨rfl⟩, hhash, hsettled, hqueue⟩ := h
  exact ⟨next, body, rfl, hhash, hsettled.enqueues_other hnew hother, hqueue⟩

theorem Remembered.dequeue {item : Nat × Bytes} {completion : Option Nat}
    (h : Remembered P digest handed inFlight (item :: queue) (some link))
    (hnew : Link.Enqueues link envelope completion next) :
    Remembered P digest handed inFlight queue (some next) := by
  obtain ⟨_, body, ⟨rfl⟩, hhash, hsettled, hqueue⟩ := h
  rcases hqueue with hempty | ⟨hsome, last, hqueue⟩
  · cases hempty
  · obtain rfl : queue = [] := (List.cons.inj hqueue).2
    refine ⟨next, body, rfl, hhash, ?_, .inl rfl⟩
    exact hsettled.enqueues_push (by simp) ⟨hsome, rfl⟩ hnew

section Answer

variable {body : Bytes} {notice : OutboundEntry (Option Nat) × SendResult}

theorem remembered_of_ok (hnumbered : Numbered handed (some body) queue (some link))
    (horderly : Link.Orderly A link) (hnotice : notice ∈ link.resolved)
    (hlast : notice.1.completion = some handed) (hok : notice.2 = .ok ()) :
    Remembered P (P.hash body) handed none queue (some link) := by
  have hentry := Link.mem_entries_iff.2 (.inr ⟨notice, hnotice, rfl⟩)
  have htracks := hnumbered.tracks link rfl _ hentry handed hlast
  obtain ⟨record, hrecord, henvelope, hstatus⟩ :=
    horderly.truthful.resolved notice hnotice .ok trivial hok
  refine ⟨link, body, rfl, rfl, ?_, .inl (hnumbered.queue_nil hentry hlast)⟩
  rw [← htracks.body_eq rfl body rfl, ← henvelope]
  exact Link.settled_of_accepted hrecord (henvelope ▸ htracks.predicate) hstatus
    (henvelope ▸ htracks.newest rfl)

theorem remembered_of_refusal (hnumbered : Numbered handed (some body) queue (some link))
    (horderly : Link.Orderly A link) (hnotice : notice ∈ link.resolved)
    (hlast : notice.1.completion = some handed) {status : AckStatus} (hrefused : status ≠ .ok)
    (hresult : notice.2 = SendResult.ofStatus status)
    (h : Remembered P digest handed (some body) queue (some link)) :
    Remembered P digest handed none queue (some link) := by
  have hentry := Link.mem_entries_iff.2 (.inr ⟨notice, hnotice, rfl⟩)
  have htracks := hnumbered.tracks link rfl _ hentry handed hlast
  obtain ⟨record, hrecord, henvelope, hstatus⟩ :=
    horderly.truthful.resolved notice hnotice status trivial hresult
  obtain ⟨_, settled, ⟨rfl⟩, hhash, hsettled, -⟩ := h
  refine ⟨link, settled, rfl, hhash, ?_, .inl (hnumbered.queue_nil hentry hlast)⟩
  exact hsettled.refused horderly.toInv htracks.enqueued htracks.predicate (htracks.newest rfl)
    ⟨record, hrecord, henvelope, hstatus ▸ hrefused⟩

end Answer

theorem Consistent.resolve (h : Consistent A P state) (hlink : state.link = some link)
    (hresolved : link.resolved ⊆ next.resolved)
    (hnumbered : Numbered state.handed state.publisher.inFlight queue (some next))
    (horderly : Link.Orderly A next)
    (happlied : ∃ before, next.acceptor.appliedBodies = before ++ next.applied)
    (hremembered : ∀ digest,
      Remembered P digest state.handed state.publisher.inFlight state.queue (some link) →
      Remembered P digest state.handed state.publisher.inFlight queue (some next)) :
    Consistent A P ({ state with queue }.resolve next) where
  numbered := hnumbered
  sessions := by
    rintro _ ⟨rfl⟩
    exact ⟨horderly, happlied⟩
  epoch_le := h.epoch_le
  answered := by
    intro result hanswer hepoch hflight
    rcases Option.or_eq_some_iff.1 hanswer with hold | ⟨-, hnew⟩
    · obtain ⟨link', notice, hlink', hnotice, hlast, hresult⟩ :=
        h.answered result hold hepoch hflight
      obtain rfl : link = link' := Option.some.inj (hlink.symm.trans hlink')
      exact ⟨next, notice, rfl, hresolved hnotice, hlast, hresult⟩
    · obtain ⟨notice, hfind, hresult⟩ := Option.map_eq_some_iff.1 hnew
      have hlast := List.find?_some hfind
      exact ⟨next, notice, rfl, List.mem_of_find?_eq_some hfind, eq_of_beq hlast, hresult⟩
  remembered := by
    intro digest hhash hepoch hconfirmed
    exact hremembered digest (hlink ▸ h.remembered digest hhash hepoch hconfirmed)
  skips_sound := h.skips_sound

theorem Consistent.extends (h : Consistent A P state) (hlink : state.link = some link)
    (hext : Link.Extends link next) (horderly : Link.Orderly A next)
    (happlied : ∃ before, next.acceptor.appliedBodies = before ++ next.applied) :
    Consistent A P (state.resolve next) :=
  h.resolve hlink hext.resolved_sub ((hlink ▸ h.numbered).extends hext) horderly happlied
    (fun _ hremembered => hremembered.extends hext)

theorem Consistent.attempted_handed (h : Consistent A P state)
    (hidle : state.publisher.inFlight = none) (body : Bytes) :
    Consistent A P ({ state with
      publisher := { state.publisher with inFlight := some body } }.attempted
        (.handed body)) where
  numbered := h.numbered.handOver body
  sessions := h.sessions
  epoch_le := h.epoch_le
  answered := by
    intro result hanswer
    cases hanswer
  remembered := by
    intro digest hhash hepoch hconfirmed
    have hold := h.remembered digest hhash hepoch hconfirmed
    rw [hidle] at hold
    exact hold.handOver body
  skips_sound := h.skips_sound

theorem Consistent.skip_sound (h : Consistent A P state)
    (hinjective : Function.Injective P.hash) (hidle : state.publisher.inFlight = none)
    (hepoch : state.seenEpoch = state.epoch) (hconfirmed : state.unconfirmed = false)
    {body : Bytes} (hhash : state.publisher.lastSentBodyHash = some (P.hash body)) :
    (state.skip body).applied = some body ∧ (state.skip body).supervised = some body := by
  have hremembered := h.remembered _ hhash hepoch hconfirmed
  rw [hidle] at hremembered
  obtain ⟨link, settled, hlink, hsame, hsettled, -⟩ := hremembered.settled
  obtain rfl : settled = body := hinjective hsame
  obtain ⟨horderly, before, hbefore⟩ := h.sessions link hlink
  have hlast : link.lastApplied = some settled := horderly.lastApplied_of_settled not_false hsettled
  have hsupervised : link.acceptor.appliedBodies.getLast? = some settled := by
    rw [hbefore, List.getLast?_append, show link.applied.getLast? = some settled from hlast]
    rfl
  exact ⟨by simp [skip, hlink, hlast], by simp [skip, hlink, hsupervised]⟩

theorem onLink_eq_some {event : Chain.Event (Option Nat)}
    (h : onLink A E handle state event = some final) :
    ∃ link next, state.link = some link ∧
      Link.step A (ChainAcceptor.dispatch E) handle link event = some next ∧
      final = state.resolve next := by
  unfold onLink at h
  cases hlink : state.link with
  | none => simp [hlink] at h
  | some link =>
      cases hstep : Link.step A (ChainAcceptor.dispatch E) handle link event with
      | none => simp [hlink, hstep] at h
      | some next =>
          simp only [hlink, hstep, Option.bind_eq_bind, Option.bind_some,
            Option.some.injEq] at h
          exact ⟨link, next, rfl, hstep, h.symm⟩

theorem Consistent.onLink (h : Consistent A P state) {event : Chain.Event (Option Nat)}
    (hevent : event.isSend = false)
    (hguard : ∀ link, state.link = some link →
      link.NoOvertaking event ∧ link.RepeatsAnswered event)
    (hstep : onLink A E handle state event = some final) : Consistent A P final := by
  obtain ⟨link, next, hlink, hnext, rfl⟩ := onLink_eq_some hstep
  obtain ⟨horderly, before, hbefore⟩ := h.sessions link hlink
  have hchange := Link.change_of_step horderly.toWired hnext
  exact h.extends hlink (Link.extends_of_change hevent hchange)
    (horderly.change (hguard link hlink).1 (hguard link hlink).2 hchange)
    ⟨before, Link.acceptor_change hbefore hchange⟩

theorem Consistent.onLink_send (h : Consistent A P state) {bodyType : UInt8} {body : Bytes}
    {completion : Option Nat} {now : Nat}
    (hnumbered : ∀ {link next : Link Key (Option Nat) (ChainAcceptor σ) χ} {seq : UInt32},
      state.link = some link → Link.Enqueues link ⟨seq, bodyType, body⟩ completion next →
      Numbered state.handed state.publisher.inFlight queue (some next))
    (hremembered : ∀ {link next : Link Key (Option Nat) (ChainAcceptor σ) χ} {seq : UInt32}
      (digest : D), Link.Enqueues link ⟨seq, bodyType, body⟩ completion next →
      Remembered P digest state.handed state.publisher.inFlight state.queue (some link) →
      Remembered P digest state.handed state.publisher.inFlight queue (some next))
    (hstep : Publishing.onLink A E handle { state with queue }
      (.send bodyType body completion now) = some final) : Consistent A P final := by
  obtain ⟨link, next, hlink, hnext, rfl⟩ := onLink_eq_some hstep
  obtain ⟨horderly, before, hbefore⟩ := h.sessions link hlink
  have hchange := Link.change_of_step horderly.toWired hnext
  have hquiet : link.NoOvertaking (.send bodyType body completion now) :=
    ⟨by simp [Link.resending], by simp [Link.arriving]⟩
  obtain ⟨seq, hnew⟩ := Link.enqueues_of_step horderly.toInv hnext
  exact h.resolve hlink (hnew.resolved_eq ▸ List.Subset.refl _) (hnumbered hlink hnew)
    (horderly.change hquiet (by simp [Link.RepeatsAnswered, Link.arriving]) hchange)
    ⟨before, Link.acceptor_change hbefore hchange⟩ (fun digest => hremembered digest hnew)

theorem Consistent.finish_unanswered (h : Consistent A P state) {publisher : Publisher ρ D}
    (hidle : publisher.inFlight = none) :
    Consistent A P { state with publisher, answer := none, unconfirmed := true } where
  numbered := by
    change Numbered state.handed publisher.inFlight state.queue state.link
    rw [hidle]
    exact h.numbered.idle
  sessions := h.sessions
  epoch_le := h.epoch_le
  answered := by
    intro result hanswer
    cases hanswer
  remembered := by
    intro digest hhash hepoch hconfirmed
    cases hconfirmed
  skips_sound := h.skips_sound

theorem Consistent.finish_answered (h : Consistent A P state) {body : Bytes}
    {result : SendResult} (hflight : state.publisher.inFlight = some body)
    (hanswer : state.answer = some result) :
    Consistent A P { state with
      publisher := state.publisher.finish P body (.resolved result)
      answer := none
      unconfirmed := unconfirmedAfter state.unconfirmed result } := by
  have hidle := Publisher.inFlight_finish P state.publisher body (.resolved result)
  refine ⟨?_, h.sessions, h.epoch_le, ?_, ?_, h.skips_sound⟩
  · change Numbered state.handed _ state.queue state.link
    rw [hidle]
    exact h.numbered.idle
  · intro _ hnone
    cases hnone
  · intro digest hhash hepoch hconfirmed
    change Remembered P digest state.handed _ state.queue state.link
    obtain ⟨link, notice, hlink, hnotice, hlast, rfl⟩ :=
      h.answered result hanswer hepoch (by rw [hflight]; rfl)
    obtain ⟨horderly, -⟩ := h.sessions link hlink
    have hnumbered := h.numbered
    rw [hflight, hlink] at hnumbered
    rw [hidle, hlink]
    have hrefusal : ∀ status, status ≠ .ok → notice.2 = SendResult.ofStatus status →
        state.publisher.lastSentBodyHash = some digest → state.unconfirmed = false →
        Remembered P digest state.handed none state.queue (some link) := by
      intro status hrefused hresult hhash hconfirmed
      have hremembered := h.remembered digest hhash hepoch hconfirmed
      rw [hflight, hlink] at hremembered
      exact remembered_of_refusal hnumbered horderly hnotice hlast hrefused hresult hremembered
    rcases hresult : notice.2 with e | value
    · rw [hresult] at hhash hconfirmed
      cases e with
      | timeout attempts => cases hconfirmed
      | channelClosed => cases hconfirmed
      | rejected code => exact hrefusal (.reject code) (by simp) hresult hhash hconfirmed
      | unknownBodyType => exact hrefusal .unknown (by simp) hresult hhash hconfirmed
    · rw [hresult] at hhash
      obtain rfl : P.hash body = digest := Option.some.inj hhash
      exact remembered_of_ok hnumbered horderly hnotice hlast hresult

theorem Consistent.connect (h : Consistent A P state) {client server : Session Key}
    (hcrossed : Link.Crossed client server) (src : SocketAddr) (acceptor : ChainAcceptor σ)
    (handler : χ) :
    Consistent A P { state with
      link := some (.start client server src acceptor handler)
      connected := true
      epoch := state.epoch + 1 } := by
  have hbehind : state.seenEpoch ≠ state.epoch + 1 :=
    Nat.ne_of_lt (Nat.lt_succ_of_le h.epoch_le)
  refine ⟨h.numbered.connect rfl, ?_, Nat.le_succ_of_le h.epoch_le, ?_, ?_, h.skips_sound⟩
  · rintro _ ⟨rfl⟩
    exact ⟨Link.orderly_start hcrossed src acceptor handler, _, (List.append_nil _).symm⟩
  · intro result _ hepoch
    exact absurd hepoch hbehind
  · intro digest _ hepoch
    exact absurd hepoch hbehind

theorem Consistent.noteEpoch (h : Consistent A P state)
    (hidle : state.publisher.inFlight = none) :
    Consistent A P { state with
      publisher := { state.publisher with lastSentBodyHash := none }
      seenEpoch := state.epoch } where
  numbered := h.numbered
  sessions := h.sessions
  epoch_le := Nat.le_refl _
  answered := by
    intro result _ _ hflight
    rw [hidle] at hflight
    cases hflight
  remembered := by
    intro digest hhash
    cases hhash
  skips_sound := h.skips_sound

variable [DecidableEq D] {event : Event Key ρ σ χ}

theorem Consistent.published (h : Consistent A P state)
    (hidle : state.publisher.inFlight = none)
    (hskip : ∀ body, state.publisher.lastSentBodyHash = some (P.hash body) →
      (state.publisher.publish P).2 = .dedup body →
      (state.skip body).applied = some body ∧ (state.skip body).supervised = some body) :
    Consistent A P ({ state with publisher := (state.publisher.publish P).1 }.attempted
      (state.publisher.publish P).2) := by
  rcases Publisher.publish_cases P state.publisher with
    ⟨body, -, -, -, hpublish⟩ | ⟨body, -, hhash, hpublish⟩ | ⟨-, attempt, hpublish, hattempt⟩
  · rw [hpublish]
    exact h.attempted_handed hidle body
  · have hsound := hskip body hhash (by rw [hpublish])
    rw [hpublish]
    refine ⟨h.numbered, h.sessions, h.epoch_le, h.answered, h.remembered, ?_⟩
    intro skip hmem
    rcases List.mem_cons.1 hmem with rfl | hold
    · exact hsound
    · exact h.skips_sound skip hold
  · rw [hpublish]
    rcases hattempt with rfl | ⟨body, rfl⟩
    · exact h
    · exact h

theorem Consistent.epochBumped (h : Consistent A P state)
    (hidle : state.publisher.inFlight = none)
    (hstep : step A P E handle state .epochBumped = some final) : Consistent A P final := by
  have hnoted := h.noteEpoch hidle
  simp only [step] at hstep
  split at hstep
  · cases hstep
  · unfold Publisher.epochBumped at hstep
    cases hhash : state.publisher.lastSentBodyHash with
    | none =>
        simp only [hhash, Option.isNone_none, if_true, Option.some.injEq] at hstep
        rw [← hstep]
        rw [← hhash] at hnoted
        exact hnoted
    | some digest =>
        simp only [hhash, Option.isNone_some, Bool.false_eq_true, if_false,
          Option.some.injEq] at hstep
        rw [← hstep]
        -- the hash was cleared, so nothing is skipped here
        refine hnoted.published hidle (fun body hcleared => ?_)
        cases hcleared

theorem Consistent.step (hinjective : Function.Injective P.hash) (h : Consistent A P state)
    (hguard : Confirmed P state event)
    (hstep : step A P E handle state event = some final) : Consistent A P final := by
  cases event with
  | setRules set =>
      simp only [Publishing.step, Option.some.injEq] at hstep
      rw [← hstep]
      exact ⟨h.numbered, h.sessions, h.epoch_le, h.answered, h.remembered, h.skips_sound⟩
  | rulesChanged =>
      simp only [Publishing.step] at hstep
      split at hstep
      · cases hstep
      · rename_i hready
        obtain ⟨hidle, hepoch⟩ := not_or.1 hready
        have hidle : state.publisher.inFlight = none := by simpa using hidle
        simp only [Option.some.injEq] at hstep
        rw [← hstep]
        exact h.published hidle (fun body hhash hdedup =>
          h.skip_sound hinjective hidle (not_not.1 hepoch) (hguard body hdedup) hhash)
  | epochBumped =>
      refine h.epochBumped ?_ hstep
      by_contra hbusy
      simp [Publishing.step, Option.isSome_iff_ne_none.2 hbusy] at hstep
  | answered =>
      simp only [Publishing.step] at hstep
      split at hstep
      · rename_i body result hflight hanswer
        cases hstep
        exact h.finish_answered hflight hanswer
      · cases hstep
  | unanswered outcome =>
      simp only [Publishing.step] at hstep
      split at hstep
      · cases hstep
      · cases hstep
      · cases hstep
        exact h.finish_unanswered (Publisher.inFlight_finish P _ _ _)
  | dequeue now =>
      simp only [Publishing.step] at hstep
      split at hstep
      · cases hstep
      · rename_i token body queue hqueue
        split at hstep
        · refine h.onLink_send ?_ ?_ hstep
          · intro link next seq hlink hnew
            have hnumbered := h.numbered
            rw [hqueue, hlink] at hnumbered
            exact hnumbered.dequeue hnew
          · intro link next seq digest hnew hremembered
            rw [hqueue] at hremembered
            exact hremembered.dequeue hnew
        · cases hstep
  | sendOther bodyType body now =>
      simp only [Publishing.step] at hstep
      split at hstep
      · rename_i hallowed
        have hother : ∀ seq, Link.isPredicate ⟨seq, bodyType, body⟩ = false :=
          fun seq => beq_eq_false_iff_ne.2 hallowed.2
        refine h.onLink_send ?_ ?_ hstep
        · intro link next seq hlink hnew
          have hnumbered := h.numbered
          rw [hlink] at hnumbered
          exact hnumbered.sendOther hnew (hother seq)
        · intro link next seq digest hnew hremembered
          exact hremembered.sendOther hnew (hother seq)
      · cases hstep
  | net event =>
      simp only [Publishing.step] at hstep
      split at hstep
      · rename_i hallowed
        exact h.onLink hallowed.1 hguard hstep
      · cases hstep
  | connect client server src acceptor handler =>
      simp only [Publishing.step] at hstep
      split at hstep
      · cases hstep
      · cases hstep
        exact h.connect hguard src acceptor handler
  | disconnect =>
      simp only [Publishing.step] at hstep
      split at hstep
      · cases hlink : state.link with
        | none => simp [hlink] at hstep
        | some link =>
            simp only [hlink, Option.bind_eq_bind, Option.bind_some,
              Option.some.injEq] at hstep
            rw [← hstep]
            obtain ⟨horderly, happlied⟩ := h.sessions link hlink
            have hclosed := h.extends hlink (Link.extends_close link) horderly.close happlied
            exact ⟨hclosed.numbered, hclosed.sessions, hclosed.epoch_le, hclosed.answered,
              hclosed.remembered, hclosed.skips_sound⟩
      · cases hstep

/-! ## Skipped pushes -/

omit [DecidableEq D] in
theorem consistent_start (rules : ρ) :
    Consistent A P (start rules : Publishing Key ρ D σ χ) where
  numbered := ⟨List.Pairwise.nil, by simp [start], by simp [start], by simp [start]⟩
  sessions := by simp [start]
  epoch_le := Nat.le_refl _
  answered := by simp [start]
  remembered := by simp [start, Publisher.start]
  skips_sound := by simp [start]

/--
In every run whose sessions are orderly and that skips a push only while every
push since the last `Ok` has been answered, a skipped body is the one the
upstream applied last, in the session and at all.
-/
theorem skipped_push_is_last_applied (hinjective : Function.Injective P.hash) {rules : ρ}
    {events : List (Event Key ρ σ χ)}
    (hguard : Along (step A P E handle) (Confirmed P) (start rules) events)
    (hrun : run (step A P E handle) (start rules) events = some final) :
    ∀ skip ∈ final.skips, skip.applied = some skip.body ∧ skip.supervised = some skip.body :=
  (run_invariant_of_guard (step A P E handle)
    (fun _ _ _ h hconfirmed hstep => Consistent.step hinjective h hconfirmed hstep)
    (consistent_start rules) hguard hrun).skips_sound

def toyDerivation : Derivation Bytes Bytes :=
  ⟨some, fun _ => .x25519 ⟨List.replicate 32 0, rfl⟩, .ok⟩

def toyAcceptor : ChainAcceptor Bytes := ⟨true, none, [], ∅, []⟩

def toyConnect : Event UInt64 Bytes Bytes Unit :=
  .connect Session.toySender Session.toyReceiver ⟨.v4 0, 0⟩ toyAcceptor ()

def toyAccepted : List (Event UInt64 Bytes Bytes Unit) :=
  [toyConnect, .epochBumped, .rulesChanged, .dequeue 0, .net (.deliverToServer 0 0),
    .net (.deliverToClient 0), .answered]

def toyUnacked : List (Event UInt64 Bytes Bytes Unit) :=
  [.setRules [2], .rulesChanged, .dequeue 1000, .net (.deliverToServer 1 0),
    .net (.retransmit 1200), .net (.retransmit 1600), .net (.retransmit 2400),
    .net (.retransmit 4000), .net (.retransmit 6000), .answered]

/-- The rules go back to the first set, which is taken for the accepted one. -/
theorem skipped_although_replaced :
    (run (step Aead.transparent Publisher.toyProjection toyDerivation Link.ignoreBody)
      (start [1]) (toyAccepted ++ toyUnacked ++ [.setRules [1], .rulesChanged])).map
      Publishing.skips = some [⟨[1], some [2], some [2]⟩] := by
  decide +kernel

theorem skipped_push_is_last_applied_toy :
    ∃ final, run (step Aead.transparent Publisher.toyProjection toyDerivation Link.ignoreBody)
        (start [1]) (toyAccepted ++ [.rulesChanged]) = some final ∧
      final.skips.map Skip.body = [[1]] ∧
      ∀ skip ∈ final.skips,
        skip.applied = some skip.body ∧ skip.supervised = some skip.body := by
  obtain ⟨final, hrun, hskips⟩ := Option.map_eq_some_iff.1 (show
    (run (step Aead.transparent Publisher.toyProjection toyDerivation Link.ignoreBody)
      (start [1]) (toyAccepted ++ [.rulesChanged])).map
      (fun final => final.skips.map Skip.body) = some [[1]] from by decide +kernel)
  refine ⟨final, hrun, hskips, skipped_push_is_last_applied (fun _ _ h => h) ?_ hrun⟩
  refine along_cons _ Link.crossed_toy rfl (along_cons _ trivial rfl (along_cons _
    (fun _ _ => rfl) rfl (along_cons _ trivial rfl (along_cons _ ?_ rfl (along_cons _ ?_ rfl
    (along_cons _ trivial rfl (along_cons _ (fun _ _ => rfl) rfl trivial)))))))
  · rintro link ⟨rfl⟩
    exact ⟨by decide, fun envelope _ record hrecord => by cases hrecord⟩
  · rintro link ⟨rfl⟩
    exact ⟨by decide, fun envelope harrives => by cases harrives⟩

end Publishing

end Yggdrasil.Chain
