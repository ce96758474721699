import Yggdrasil.Chain.Queries
import Yggdrasil.Proxy.Supervisor

/-!
# Chain walks from the control socket

The daemon that the operator talks to starts the two walks itself: `chain
summary` lists the nodes up to the head, and `chain canary` arms the owner of a
rule, sends probe traffic through the rule and disarms it.
-/

namespace Yggdrasil.Control

open Foundation Ratatoskr Chain
open Yggdrasil.Proxy (ArmTasks Effective Supervisor ActiveProxy Surroundings)

structure WalkState (View : Type) where
  mode : Mode
  introspection : Option (Introspection View)
  uptimeSecs : UInt64
  nodeName : String
  currentSet : RuleSet
  canaryArmTable : ArmTasks

def clampDeadlineMs (ms : Nat) : UInt32 := UInt32.ofNat (min ms (2 ^ 32 - 1))

variable {View Probe : Type}

structure ChainSummaryResponse (View : Type) where
  hops : List (ChainHop View)
  isPartial : Bool

structure ErrorResponse where
  code : String
  message : String
  deriving DecidableEq, Repr

def summaryDeadlineMs (timeoutMs : Option UInt64) : UInt32 :=
  clampDeadlineMs (((timeoutMs.filter (0 < ·)).map UInt64.toNat).getD
    chainHopDefaultDeadlineMs.toNat)

def dispatchChainSummary (timeoutMs : Option UInt64) (upstream : Option (Upstream (ChainHop View)))
    (state : WalkState View) : Except ErrorResponse (ChainSummaryResponse View) :=
  match state.introspection with
  | none => .error ⟨"internal_error", "introspection state not configured for this daemon"⟩
  | some introspection =>
      let localHop : ChainHop View :=
        { hopIndex := 0
          mode := state.mode
          uptimeSecs := state.uptimeSecs
          name := some state.nodeName
          view := introspection.snapshot
          queryRttMs := none }
      match upstream with
      | none => .ok ⟨[localHop], false⟩
      | some query =>
          match query chainHopDefaultDepthBudget (summaryDeadlineMs timeoutMs) with
          | .ok (rttMs, reply) =>
              .ok ⟨appendUpstream rttMs [localHop] 0 reply.hops, reply.isPartial⟩
          | .error _ => .ok ⟨[localHop], true⟩

structure CanaryRequest where
  ruleListen : SocketAddr
  ruleProtocol : Protocol
  durationMs : UInt32
  timeoutMs : Option UInt32

inductive CanaryStatus where
  | ok
  | degraded
  | noSuchRule
  | chainDead
  deriving DecidableEq, Repr

structure CloseMatch where
  listen : SocketAddr
  protocol : Protocol
  ruleName : String
  deriving DecidableEq, Repr

structure ChainCanaryResponse (Probe : Type) where
  status : CanaryStatus
  chain : List CanaryHop
  probeResults : Option Probe
  isPartial : Bool
  closeMatches : List CloseMatch
  ruleName : Option String

def findRuleName (set : RuleSet) (listen : SocketAddr) (protocol : Protocol) : Option String :=
  (set.rules.find? (fun rule => rule.listen = listen && rule.protocol = protocol)).map Rule.name

/-- The same port on another protocol is closest, then the same protocol on another port. -/
def matchRank (listen : SocketAddr) (protocol : Protocol) (rule : Rule) : Nat :=
  if rule.listen.port = listen.port ∧ rule.protocol ≠ protocol then 0
  else if rule.protocol = protocol ∧ rule.listen.port ≠ listen.port then 1
  else 2

def computeCloseMatches (set : RuleSet) (listen : SocketAddr) (protocol : Protocol) :
    List CloseMatch :=
  let others := set.rules.filter (fun rule => !(rule.listen = listen && rule.protocol = protocol))
  let ranked := others.map (fun rule =>
    (matchRank listen protocol rule, (⟨rule.listen, rule.protocol, rule.name⟩ : CloseMatch)))
  ((ranked.insertionSort (fun a b => a.1 ≤ b.1)).take 3).map Prod.snd

def armGraceMs : Nat := 5000

def CanaryRequest.armTtlMs (request : CanaryRequest) : Nat :=
  max request.durationMs.toNat 1 + armGraceMs

def saturatingAdd (a : UInt64) (b : Nat) : UInt64 := UInt64.ofNat (min (a.toNat + b) (2 ^ 64 - 1))

/-- What one canary run meets: its random token, its clocks, and how its probe ends. -/
structure CanaryEnv (Probe : Type) where
  token : CanaryToken
  clock : Clock
  probe : Except String Probe
  classify : Probe → Protocol → CanaryStatus

structure CanaryRun (Probe : Type) where
  armed : ArmTasks
  disarms : Bool
  response : ChainCanaryResponse Probe

def placeholderKey : PubKey := .x25519 .zero

def armFrame (request : CanaryRequest) (env : CanaryEnv Probe) : CanaryArm where
  queryId := 0
  depthBudget := canaryArmDefaultDepthBudget
  -- the timeout of the send overwrites the one in the frame, which may be zero
  deadlineMs := max (request.timeoutMs.getD canaryArmDefaultDeadlineMs) 1
  ruleListen := request.ruleListen
  ruleProtocol := request.ruleProtocol
  token := env.token
  expiresUnixMs := saturatingAdd env.clock.unixMs request.armTtlMs

namespace WalkState

variable (state : WalkState View)

def armLocally (request : CanaryRequest) (env : CanaryEnv Probe) : ArmTasks × Bool :=
  if state.mode = .terminal then
    (state.canaryArmTable.arm (request.ruleListen, request.ruleProtocol) env.token
      (env.clock.instant + request.armTtlMs) env.clock.later, true)
  else (state.canaryArmTable, false)

def localCanaryHop (request : CanaryRequest) (env : CanaryEnv Probe) : CanaryHop where
  hopIndex := 0
  pubkey := (state.introspection.map Introspection.chainLocal).getD placeholderKey
  name := some state.nodeName
  mode := state.mode
  rulePresent := true
  echoArmed := (state.armLocally request env).2
  queryRttMs := none

end WalkState

def armChain (upstream : Option (CanaryArm → Except QueryError (UInt64 × CanaryReply)))
    (frame : CanaryArm) (localHop : CanaryHop) : List CanaryHop × Bool :=
  match upstream with
  | none => ([localHop], false)
  | some query =>
      match query frame with
      | .ok (rttMs, reply) => (appendUpstream rttMs [localHop] 0 reply.hops, reply.isPartial)
      | .error _ => ([localHop], true)

def probeRule (protocol : Protocol) (env : CanaryEnv Probe) : Except String Probe :=
  match protocol with
  | .tcp | .udp => env.probe
  | .https => .error "chain canary does not support Https rules in v1"

def dispatchChainCanary (request : CanaryRequest)
    (upstream : Option (CanaryArm → Except QueryError (UInt64 × CanaryReply)))
    (env : CanaryEnv Probe) (state : WalkState View) : CanaryRun Probe :=
  match findRuleName state.currentSet request.ruleListen request.ruleProtocol with
  | none =>
      ⟨state.canaryArmTable, false,
        ⟨.noSuchRule, [], none, false,
          computeCloseMatches state.currentSet request.ruleListen request.ruleProtocol, none⟩⟩
  | some ruleName =>
      let (armed, echoArmed) := state.armLocally request env
      let (chain, isPartial) :=
        armChain upstream (armFrame request env) (state.localCanaryHop request env)
      let response : ChainCanaryResponse Probe :=
        if isPartial then ⟨.chainDead, chain, none, true, [], some ruleName⟩
        else
          match probeRule request.ruleProtocol env with
          | .ok results =>
              ⟨env.classify results request.ruleProtocol, chain, some results, false, [],
                some ruleName⟩
          | .error _ => ⟨.degraded, chain, none, false, [], some ruleName⟩
      ⟨armed, echoArmed, response⟩

/-! ## Numbers of the hops -/

theorem forall_answer_iff {α β γ : Type} {upstream : α} {P : γ → Prop}
    {ask : α → Except QueryError (β × γ)} :
    (∀ query rttMs reply, some upstream = some query → ask query = .ok (rttMs, reply) →
      P reply) ↔ ∀ rttMs reply, ask upstream = .ok (rttMs, reply) → P reply := by
  refine ⟨fun h rttMs reply => h upstream rttMs reply rfl, fun h query rttMs reply hsame => ?_⟩
  exact Option.some.inj hsame ▸ h rttMs reply

theorem numbered_dispatchChainSummary_iff {timeoutMs : Option UInt64}
    {upstream : Option (Upstream (ChainHop View))} {state : WalkState View}
    {response : ChainSummaryResponse View}
    (h : dispatchChainSummary timeoutMs upstream state = .ok response) :
    Numbered response.hops ↔ ∀ query rttMs reply, upstream = some query →
      query chainHopDefaultDepthBudget (summaryDeadlineMs timeoutMs) = .ok (rttMs, reply) →
        reply.hops.length ≤ 1 := by
  unfold dispatchChainSummary at h
  split at h
  · cases h
  · dsimp only at h
    split at h
    · cases h
      exact iff_of_true ((numbered_appendUpstream_iff rfl 0 []).2 (Nat.zero_le 1))
        fun query _ _ hnone => by cases hnone
    · rename_i query
      split at h
      · rename_i rttMs reply hreply
        rw [← Except.ok.inj h, numbered_appendUpstream_iff rfl, forall_answer_iff]
        simp [hreply]
      · rename_i e herror
        rw [← Except.ok.inj h, forall_answer_iff]
        exact iff_of_true ((numbered_appendUpstream_iff rfl 0 []).2 (Nat.zero_le 1))
          (by simp [herror])

theorem numbered_armChain_iff
    (upstream : Option (CanaryArm → Except QueryError (UInt64 × CanaryReply)))
    (frame : CanaryArm) {localHop : CanaryHop} (h : localHop.hopIndex = 0) :
    Numbered (armChain upstream frame localHop).1 ↔ ∀ query rttMs reply, upstream = some query →
      query frame = .ok (rttMs, reply) → reply.hops.length ≤ 1 := by
  have halone : Numbered [localHop] := (numbered_appendUpstream_iff h 0 []).2 (Nat.zero_le 1)
  cases upstream with
  | none => exact iff_of_true halone fun query _ _ hnone => by cases hnone
  | some query =>
      rw [forall_answer_iff]
      cases hreply : query frame with
      | ok answer =>
          obtain ⟨rttMs, reply⟩ := answer
          simp only [armChain, hreply]
          rw [numbered_appendUpstream_iff h]
          simp
      | error e =>
          simp only [armChain, hreply]
          exact iff_of_true halone (by simp)

variable {request : CanaryRequest}

theorem chain_dispatchChainCanary {state : WalkState View} {ruleName : String}
    (upstream : Option (CanaryArm → Except QueryError (UInt64 × CanaryReply)))
    (env : CanaryEnv Probe)
    (h : findRuleName state.currentSet request.ruleListen request.ruleProtocol = some ruleName) :
    (dispatchChainCanary request upstream env state).response.chain =
      (armChain upstream (armFrame request env) (state.localCanaryHop request env)).1 := by
  simp only [dispatchChainCanary, h]
  split
  · rfl
  · split <;> rfl

theorem numbered_dispatchChainCanary_iff (request : CanaryRequest)
    (upstream : Option (CanaryArm → Except QueryError (UInt64 × CanaryReply)))
    (env : CanaryEnv Probe) (state : WalkState View) :
    Numbered (dispatchChainCanary request upstream env state).response.chain ↔
      ∀ ruleName query rttMs reply,
        findRuleName state.currentSet request.ruleListen request.ruleProtocol = some ruleName →
        upstream = some query → query (armFrame request env) = .ok (rttMs, reply) →
          reply.hops.length ≤ 1 := by
  cases hfind : findRuleName state.currentSet request.ruleListen request.ruleProtocol with
  | none =>
      simp only [dispatchChainCanary, hfind]
      exact iff_of_true (fun i hop hhop => by simp at hhop) fun _ _ _ _ hnone => by cases hnone
  | some ruleName =>
      rw [chain_dispatchChainCanary upstream env hfind, numbered_armChain_iff upstream _ rfl]
      exact ⟨fun h _ query rttMs reply _ => h query rttMs reply,
        fun h query rttMs reply => h ruleName query rttMs reply rfl⟩

/--
The lists that the four handlers assemble are well numbered exactly when the
upstream, if it is asked and replies, lists no more than one hop; a reply that
is cut to the local hop for its size is well numbered too.
-/
theorem hops_numbered_iff :
    (∀ (responder : Responder View) (encode : ChainHopReply View → Except String Bytes)
      (upstream : Option (Upstream (ChainHop View))) (query : ChainHopQuery)
      (reply : ChainHopReply View),
      responder.handleChainHopQuery encode upstream query = some reply →
        (Numbered reply.hops ↔ ∀ hop rttMs answer, responder.chainHop = some hop →
          Answered upstream query.depthBudget query.deadlineMs rttMs answer →
            answer.hops.length ≤ 1 ∨ ¬(hopWalk encode).Fits ⟨query.queryId,
              appendUpstream rttMs [hop] 0 answer.hops, answer.isPartial, answer.error⟩)) ∧
    (∀ (responder : Responder View) (encode : CanaryReply → Except String Bytes)
      (upstream : Option (CanaryArm → Except QueryError (UInt64 × CanaryReply)))
      (arm : CanaryArm) (clock : Clock) (reply : CanaryReply),
      (responder.handleCanaryArm encode upstream arm clock).2 = some reply →
        (Numbered reply.hops ↔ ∀ hop rttMs answer, responder.canaryHop arm clock = some hop →
          Answered (upstream.map (Responder.forwarding arm)) arm.depthBudget arm.deadlineMs rttMs
            answer → answer.hops.length ≤ 1 ∨ ¬(canaryWalk encode).Fits ⟨arm.queryId,
              appendUpstream rttMs [hop] 0 answer.hops, answer.isPartial,
              ((canaryWalk encode).merge answer).2⟩)) ∧
    (∀ (timeoutMs : Option UInt64) (upstream : Option (Upstream (ChainHop View)))
      (state : WalkState View) (response : ChainSummaryResponse View),
      dispatchChainSummary timeoutMs upstream state = .ok response →
        (Numbered response.hops ↔ ∀ query rttMs reply, upstream = some query →
          query chainHopDefaultDepthBudget (summaryDeadlineMs timeoutMs) = .ok (rttMs, reply) →
            reply.hops.length ≤ 1)) ∧
    (∀ (request : CanaryRequest)
      (upstream : Option (CanaryArm → Except QueryError (UInt64 × CanaryReply)))
      (env : CanaryEnv Probe) (state : WalkState View),
      Numbered (dispatchChainCanary request upstream env state).response.chain ↔
        ∀ ruleName query rttMs reply,
          findRuleName state.currentSet request.ruleListen request.ruleProtocol = some ruleName →
          upstream = some query → query (armFrame request env) = .ok (rttMs, reply) →
            reply.hops.length ≤ 1) := by
  refine ⟨?_, ?_, ?_, numbered_dispatchChainCanary_iff⟩
  · exact fun _ _ _ _ _ hreply => numbered_handleChainHopQuery_iff hreply
  · exact fun _ _ _ _ _ _ hreply => numbered_handleCanaryArm_iff hreply
  · exact fun _ _ _ _ hresponse => numbered_dispatchChainSummary_iff hresponse

def twoHops : ChainHopReply Unit :=
  ⟨0, [⟨0, .relay, 0, none, (), none⟩, ⟨1, .gateway, 0, none, (), none⟩], false, none⟩

def bareState (mode : Mode) (currentSet : RuleSet) : WalkState Unit :=
  ⟨mode, some ⟨(), placeholderKey⟩, 0, "node", currentSet, ⟨∅, []⟩⟩

/-- Behind two well-numbered hops the third of the list carries the number three. -/
theorem third_hop_is_misnumbered :
    Numbered twoHops.hops ∧
    (∃ reply, bareNode.responder.handleChainHopQuery (fun _ => .ok [])
        (some (fun _ _ => .ok (1, twoHops))) ⟨0, 16, 5000⟩ = some reply ∧
      reply.hops.map ChainHop.hopIndex = [0, 1, 3] ∧ ¬ Numbered reply.hops) ∧
    (∃ response, dispatchChainSummary none (some (fun _ _ => .ok (1, twoHops)))
        (bareState .terminal .empty) = .ok response ∧
      response.hops.map ChainHop.hopIndex = [0, 1, 3] ∧ ¬ Numbered response.hops) := by
  refine ⟨?_, ⟨_, rfl, rfl, ?_⟩, ⟨_, rfl, rfl, ?_⟩⟩
  · intro i hop hhop
    match i, hhop with
    | 0, hhop => rw [← Option.some.inj hhop]; rfl
    | 1, hhop => rw [← Option.some.inj hhop]; rfl
  · exact fun hnumbered => absurd (hnumbered 2 _ rfl) (by decide)
  · exact fun hnumbered => absurd (hnumbered 2 _ rfl) (by decide)

theorem hops_numbered_iff_two_nodes :
    ∃ reply, bareNode.responder.handleChainHopQuery (fun _ => .ok [])
        (some (fun _ _ => .ok (1, ⟨0, [⟨0, .gateway, 0, none, (), none⟩], false, none⟩)))
        ⟨0, 16, 5000⟩ = some reply ∧
      reply.hops.length = 2 ∧ Numbered reply.hops := by
  refine ⟨_, rfl, rfl, ?_⟩
  refine ((@hops_numbered_iff Unit Unit).1 bareNode.responder (fun _ => .ok [])
    (some (fun _ _ => .ok (1, ⟨0, [⟨0, .gateway, 0, none, (), none⟩], false, none⟩)))
    ⟨0, 16, 5000⟩ _ rfl).2 ?_
  rintro hop rttMs answer - ⟨query, hquery, -, -, hanswer⟩
  cases hquery
  obtain ⟨-, rfl⟩ := Prod.mk.inj (Except.ok.inj hanswer)
  exact .inl (Nat.le_refl 1)

theorem echoArmed_head?_dispatch {state : WalkState View}
    {upstream : Option (CanaryArm → Except QueryError (UInt64 × CanaryReply))}
    {env : CanaryEnv Probe} {hop : CanaryHop}
    (hhop : (dispatchChainCanary request upstream env state).response.chain.head? = some hop)
    (hreported : hop.echoArmed = true) :
    (dispatchChainCanary request upstream env state).armed =
        state.canaryArmTable.arm (request.ruleListen, request.ruleProtocol) env.token
          (env.clock.instant + request.armTtlMs) env.clock.later ∧
      (dispatchChainCanary request upstream env state).disarms = true := by
  cases hfind : findRuleName state.currentSet request.ruleListen request.ruleProtocol with
  | none =>
      simp only [dispatchChainCanary, hfind] at hhop
      cases hhop
  | some ruleName =>
      rw [chain_dispatchChainCanary upstream env hfind] at hhop
      have hlocal : hop = state.localCanaryHop request env := by
        unfold armChain at hhop
        split at hhop
        · exact (Option.some.inj hhop).symm
        · split at hhop
          · obtain ⟨rest, hrest⟩ := isPrefix_appendUpstream _ [state.localCanaryHop request env] 0 _
            rw [← hrest] at hhop
            exact (Option.some.inj hhop).symm
          · exact (Option.some.inj hhop).symm
      have hterminal : state.mode = .terminal := by
        rw [hlocal] at hreported
        by_contra hother
        simp [WalkState.localCanaryHop, WalkState.armLocally, hother] at hreported
      simp only [dispatchChainCanary, hfind, WalkState.armLocally, if_pos hterminal, and_self]

theorem claim_of_running {defaultBind : Option IpAddr} {calls : List (Surroundings × RuleSet)}
    {supervisor : Supervisor}
    (hrun : run (Supervisor.step defaultBind) Supervisor.start calls = some supervisor)
    {rule : Rule} (hrule : rule ∈ supervisor.currentSet.rules) {proxy : ActiveProxy}
    (hproxy : supervisor.active.lookup rule.name = some proxy) :
    proxy.claim = ((rule.withBindOverride defaultBind).listen, rule.protocol) := by
  obtain ⟨other, hother, hbound⟩ := Supervisor.tracks_of_run hrun rule.name proxy hproxy
  rw [supervisor.currentSet.find_of_mem hrule] at hother
  cases hother
  rw [ActiveProxy.claim, ActiveProxy.localAddr, hbound, Rule.protocol_withBindOverride]

/--
An arm that a node reports for a rule works at the rule's running listener
when the default bind address leaves the rule's address alone, and no disarm is
about to remove the key; else only an arm of that token from before does.
-/
theorem reported_arm_effective_iff {defaultBind : Option IpAddr}
    {calls : List (Surroundings × RuleSet)} {supervisor : Supervisor}
    (hrun : run (Supervisor.step defaultBind) Supervisor.start calls = some supervisor)
    {rule : Rule} (hrule : rule ∈ supervisor.currentSet.rules) {proxy : ActiveProxy}
    (hproxy : supervisor.active.lookup rule.name = some proxy) :
    (∀ (responder : Responder View) (encode : CanaryReply → Except String Bytes)
      (upstream : Option (CanaryArm → Except QueryError (UInt64 × CanaryReply)))
      (arm : CanaryArm) (clock : Clock) (reply : CanaryReply) (hop : CanaryHop),
      responder.currentSet = supervisor.currentSet →
      (arm.ruleListen, arm.ruleProtocol) = rule.claim →
      (responder.handleCanaryArm encode upstream arm clock).2 = some reply →
      reply.hops.head? = some hop → hop.echoArmed = true →
      ∃ before after, responder.armTable = some before ∧
        (responder.handleCanaryArm encode upstream arm clock).1.armTable = some after ∧
        (Effective after proxy.claim arm.token
            (clock.instant + armTtlMs arm.expiresUnixMs clock.unixMs) ↔
          ((rule.withBindOverride defaultBind).listen = rule.listen ∧
            rule.claim ∉ before.removing) ∨
          Effective before proxy.claim arm.token
            (clock.instant + armTtlMs arm.expiresUnixMs clock.unixMs))) ∧
    (∀ (request : CanaryRequest)
      (upstream : Option (CanaryArm → Except QueryError (UInt64 × CanaryReply)))
      (env : CanaryEnv Probe) (state : WalkState View) (hop : CanaryHop),
      state.currentSet = supervisor.currentSet →
      (request.ruleListen, request.ruleProtocol) = rule.claim →
      (dispatchChainCanary request upstream env state).response.chain.head? = some hop →
      hop.echoArmed = true →
      (Effective (dispatchChainCanary request upstream env state).armed proxy.claim env.token
          (env.clock.instant + request.armTtlMs) ↔
        ((rule.withBindOverride defaultBind).listen = rule.listen ∧
          rule.claim ∉ state.canaryArmTable.removing) ∨
        Effective state.canaryArmTable proxy.claim env.token
          (env.clock.instant + request.armTtlMs))) := by
  have hclaim : proxy.claim = rule.claim ↔
      (rule.withBindOverride defaultBind).listen = rule.listen := by
    rw [claim_of_running hrun hrule hproxy, Rule.claim, Prod.mk.injEq, and_iff_left rfl]
  constructor
  · intro responder encode upstream arm clock reply hop _ htarget hreply hhop hreported
    obtain ⟨httl, before, hbefore, hafter⟩ := handleCanaryArm_of_reported hreply hhop hreported
    refine ⟨before, _, hbefore, hafter, ?_⟩
    rw [Proxy.effective_arm_iff (by omega), htarget, hclaim]
  · intro request upstream env state hop _ htarget hhop hreported
    have hpos : 0 < request.armTtlMs := by
      unfold CanaryRequest.armTtlMs
      omega
    rw [(echoArmed_head?_dispatch hhop hreported).1, Proxy.effective_arm_iff (by omega), htarget,
      hclaim]

def wildcardSet : RuleSet :=
  ⟨[⟨"web", ⟨.v4 0, 8080⟩, .tcp, some 80, none, none, none⟩], [], by decide, by decide, by decide⟩

def webRequest : CanaryRequest := ⟨⟨.v4 0, 8080⟩, .tcp, 1000, none⟩

def quietEnv : CanaryEnv Unit :=
  ⟨⟨List.replicate 32 (.ofNat 7), rfl⟩, ⟨0, 0, 0⟩, .ok (), fun _ _ => .ok⟩

/-- A terminal with a default bind address reports the arm, and forwards the token it armed. -/
theorem bind_override_hides_arm :
    ∃ supervisor proxy,
      run (Supervisor.step (some (.v4 0x7F000001))) Supervisor.start
        [(Supervisor.obliging, wildcardSet)] = some supervisor ∧
      supervisor.active.lookup "web" = some proxy ∧
      (dispatchChainCanary webRequest none quietEnv
        (bareState .terminal supervisor.currentSet)).response.chain.map CanaryHop.echoArmed =
          [true] ∧
      Proxy.routeConnection (dispatchChainCanary webRequest none quietEnv
        (bareState .terminal supervisor.currentSet)).armed.arms proxy.localAddr 0 0
          (some quietEnv.token.val) = .forward ∧
      ¬ Effective (dispatchChainCanary webRequest none quietEnv
        (bareState .terminal supervisor.currentSet)).armed proxy.claim quietEnv.token
          (quietEnv.clock.instant + webRequest.armTtlMs) := by
  refine ⟨Supervisor.start.applySet (some (.v4 0x7F000001)) Supervisor.obliging wildcardSet,
    ⟨⟨"web", ⟨.v4 0x7F000001, 8080⟩, .tcp, some 80, none, none, none⟩, 0⟩, rfl, by decide,
    by decide, by decide, ?_⟩
  intro heffective
  have hmatched := (heffective [] _ (by simp) rfl).matched 0 (by decide)
  exact absurd hmatched (by decide)

theorem reported_arm_effective_iff_wildcard :
    ∃ supervisor proxy,
      run (Supervisor.step none) Supervisor.start [(Supervisor.obliging, wildcardSet)] =
        some supervisor ∧
      supervisor.active.lookup "web" = some proxy ∧
      Effective (dispatchChainCanary webRequest none quietEnv
        (bareState .terminal supervisor.currentSet)).armed proxy.claim quietEnv.token
          (quietEnv.clock.instant + webRequest.armTtlMs) := by
  refine ⟨Supervisor.start.applySet none Supervisor.obliging wildcardSet,
    ⟨⟨"web", ⟨.v4 0, 8080⟩, .tcp, some 80, none, none, none⟩, 0⟩, rfl, by decide, ?_⟩
  have heffective := (@reported_arm_effective_iff Unit Unit none
    [(Supervisor.obliging, wildcardSet)] _ rfl
    ⟨"web", ⟨.v4 0, 8080⟩, .tcp, some 80, none, none, none⟩ (by decide)
    ⟨⟨"web", ⟨.v4 0, 8080⟩, .tcp, some 80, none, none, none⟩, 0⟩ (by decide)).2 webRequest none
    quietEnv (bareState .terminal wildcardSet) _ rfl rfl rfl rfl
  exact heffective.2 (.inl ⟨rfl, by decide⟩)

end Yggdrasil.Control
