import Yggdrasil.Chain.Walk
import Yggdrasil.Proxy.Canary

/-!
# Answering the queries up the chain

The two recursive queries at one node, and along a chain of nodes.  A canary
arm is installed by a terminal that has the rule, for at most a minute.
-/

namespace Yggdrasil.Chain

open Foundation Ratatoskr
open Yggdrasil.Control (Mode)
open Yggdrasil.Proxy (ArmTasks)

structure Introspection (View : Type) where
  snapshot : View
  chainLocal : PubKey

structure Responder (View : Type) where
  introspection : Option (Introspection View)
  mode : Option Mode
  uptimeSecs : UInt64
  nodeName : Option String
  currentSet : RuleSet
  armTable : Option ArmTasks

structure Clock where
  unixMs : UInt64
  /-- What the expiry counts from. -/
  instant : Nat
  /-- Read again to drop stale arms. -/
  later : Nat
  deriving DecidableEq, Repr

variable {View : Type}

def hopWalk (encode : ChainHopReply View → Except String Bytes) : Walk (ChainHop View) where
  merge reply := (reply.isPartial, reply.error)
  merge_fst _ := rfl
  describe
    | .timeout => "upstream chain hop query timed out"
    | error => s!"upstream chain hop query failed: {error.toString}"
  maxWireBytes := chainHopReplyMaxWireBytes
  encode := encode

namespace Responder

variable (responder : Responder View)

def modeOrRelay : Mode := responder.mode.getD .relay

def chainHop : Option (ChainHop View) :=
  responder.introspection.map (fun introspection =>
    { hopIndex := 0
      mode := responder.modeOrRelay
      uptimeSecs := responder.uptimeSecs
      name := responder.nodeName
      view := introspection.snapshot
      queryRttMs := none })

def handleChainHopQuery (encode : ChainHopReply View → Except String Bytes)
    (upstream : Option (Upstream (ChainHop View))) (query : ChainHopQuery) :
    Option (ChainHopReply View) :=
  (hopWalk encode).handle responder.chainHop upstream query.queryId query.depthBudget
    query.deadlineMs

end Responder

def canaryWalk (encode : CanaryReply → Except String Bytes) : Walk CanaryHop where
  merge reply := if reply.isPartial then (true, reply.error) else (false, none)
  merge_fst reply := by cases reply.isPartial <;> rfl
  describe error := s!"upstream canary arm failed: {error.toString}"
  maxWireBytes := canaryReplyMaxWireBytes
  encode := encode

def serverMaxArmTtlMs : Nat := 60000

/-- An expiry in the past leaves nothing; one far ahead is cut. -/
def armTtlMs (expiresUnixMs nowMs : UInt64) : Nat :=
  min (expiresUnixMs.toNat - nowMs.toNat) serverMaxArmTtlMs

namespace Responder

variable (responder : Responder View)

def hasMatchingRule (listen : SocketAddr) (protocol : Protocol) : Bool :=
  responder.currentSet.rules.any (fun rule => rule.listen = listen && rule.protocol = protocol)

/-- The node afterwards, and whether it installed the arm. -/
def installArm (arm : CanaryArm) (clock : Clock) : Responder View × Bool :=
  if responder.modeOrRelay = .terminal ∧
      responder.hasMatchingRule arm.ruleListen arm.ruleProtocol = true then
    match responder.armTable with
    | some table =>
        let ttlMs := armTtlMs arm.expiresUnixMs clock.unixMs
        if 0 < ttlMs then
          let table := table.arm (arm.ruleListen, arm.ruleProtocol) arm.token
            (clock.instant + ttlMs) clock.later
          ({ responder with armTable := some table }, true)
        else (responder, false)
    | none => (responder, false)
  else (responder, false)

def canaryHop (arm : CanaryArm) (clock : Clock) : Option CanaryHop :=
  responder.introspection.map (fun introspection =>
    { hopIndex := 0
      pubkey := introspection.chainLocal
      name := responder.nodeName
      mode := responder.modeOrRelay
      rulePresent := responder.hasMatchingRule arm.ruleListen arm.ruleProtocol
      echoArmed := (responder.installArm arm clock).2
      queryRttMs := none })

def forwardedArm (arm : CanaryArm) (depthBudget deadlineMs : UInt32) : CanaryArm :=
  { arm with queryId := 0, depthBudget := depthBudget, deadlineMs := deadlineMs }

def forwarding (arm : CanaryArm)
    (query : CanaryArm → Except QueryError (UInt64 × CanaryReply)) : Upstream CanaryHop :=
  fun depthBudget deadlineMs => query (forwardedArm arm depthBudget deadlineMs)

def handleCanaryArm (encode : CanaryReply → Except String Bytes)
    (upstream : Option (CanaryArm → Except QueryError (UInt64 × CanaryReply))) (arm : CanaryArm)
    (clock : Clock) : Responder View × Option CanaryReply :=
  -- without introspection the node does not know its own key, and does not arm
  let armed := if responder.introspection.isSome then (responder.installArm arm clock).1
    else responder
  (armed, (canaryWalk encode).handle (responder.canaryHop arm clock)
    (upstream.map (forwarding arm)) arm.queryId arm.depthBudget arm.deadlineMs)

end Responder

section

variable {responder : Responder View} {upstream : Option (Upstream (ChainHop View))}

theorem numbered_handleChainHopQuery_iff {encode : ChainHopReply View → Except String Bytes}
    {query : ChainHopQuery} {reply : ChainHopReply View}
    (h : responder.handleChainHopQuery encode upstream query = some reply) :
    Numbered reply.hops ↔ ∀ hop rttMs answer, responder.chainHop = some hop →
      Answered upstream query.depthBudget query.deadlineMs rttMs answer →
        answer.hops.length ≤ 1 ∨ ¬(hopWalk encode).Fits ⟨query.queryId,
          appendUpstream rttMs [hop] 0 answer.hops, answer.isPartial, answer.error⟩ := by
  refine (hopWalk encode).numbered_handle_iff ?_ h
  intro hop hhop
  obtain ⟨introspection, -, rfl⟩ := Option.map_eq_some_iff.1 hhop
  rfl

variable {encode : CanaryReply → Except String Bytes} {arm : CanaryArm} {clock : Clock}

theorem numbered_handleCanaryArm_iff
    {upstream : Option (CanaryArm → Except QueryError (UInt64 × CanaryReply))} {reply : CanaryReply}
    (h : (responder.handleCanaryArm encode upstream arm clock).2 = some reply) :
    Numbered reply.hops ↔ ∀ hop rttMs answer, responder.canaryHop arm clock = some hop →
      Answered (upstream.map (Responder.forwarding arm)) arm.depthBudget arm.deadlineMs rttMs
        answer → answer.hops.length ≤ 1 ∨ ¬(canaryWalk encode).Fits ⟨arm.queryId,
          appendUpstream rttMs [hop] 0 answer.hops, answer.isPartial,
          ((canaryWalk encode).merge answer).2⟩ := by
  refine (canaryWalk encode).numbered_handle_iff ?_ h
  intro hop hhop
  obtain ⟨introspection, -, rfl⟩ := Option.map_eq_some_iff.1 hhop
  rfl

theorem installArm_of_armed (h : (responder.installArm arm clock).2 = true) :
    0 < armTtlMs arm.expiresUnixMs clock.unixMs ∧
    ∃ table, responder.armTable = some table ∧
      (responder.installArm arm clock).1.armTable =
        some (table.arm (arm.ruleListen, arm.ruleProtocol) arm.token
          (clock.instant + armTtlMs arm.expiresUnixMs clock.unixMs) clock.later) := by
  unfold Responder.installArm at h ⊢
  split at h
  next howner =>
    cases htable : responder.armTable with
    | none => simp [htable] at h
    | some table =>
        by_cases httl : 0 < armTtlMs arm.expiresUnixMs clock.unixMs
        · exact ⟨httl, table, rfl, by simp [httl, howner]⟩
        · simp [htable, httl] at h
  next => cases h

theorem handleCanaryArm_of_reported
    {upstream : Option (CanaryArm → Except QueryError (UInt64 × CanaryReply))} {reply : CanaryReply}
    {hop : CanaryHop}
    (hreply : (responder.handleCanaryArm encode upstream arm clock).2 = some reply)
    (hhop : reply.hops.head? = some hop) (hreported : hop.echoArmed = true) :
    0 < armTtlMs arm.expiresUnixMs clock.unixMs ∧
    ∃ table, responder.armTable = some table ∧
      (responder.handleCanaryArm encode upstream arm clock).1.armTable =
        some (table.arm (arm.ruleListen, arm.ruleProtocol) arm.token
          (clock.instant + armTtlMs arm.expiresUnixMs clock.unixMs) clock.later) := by
  rw [(canaryWalk encode).head?_handle hreply] at hhop
  obtain ⟨introspection, hintrospection, rfl⟩ := Option.map_eq_some_iff.1 hhop
  have harmed : (responder.handleCanaryArm encode upstream arm clock).1 =
      (responder.installArm arm clock).1 := by
    simp [Responder.handleCanaryArm, hintrospection]
  rw [harmed]
  exact installArm_of_armed hreported

end

structure ChainNode (View : Type) where
  responder : Responder View
  /-- How its own query ends if the upstream replies. -/
  uplink : Except QueryError UInt64
  nextQueryId : UInt32
  clock : Clock

namespace ChainNode

variable (node : ChainNode View)

def hopStation : Station (ChainHop View) :=
  ⟨node.responder.chainHop, node.uplink, node.nextQueryId⟩

def canaryStation (arm : CanaryArm) : Station CanaryHop :=
  ⟨node.responder.canaryHop arm node.clock, node.uplink, node.nextQueryId⟩

end ChainNode

def answerChainHopQuery (encode : ChainHopReply View → Except String Bytes) :
    List (ChainNode View) → ChainHopQuery → Option (ChainHopReply View)
  | [], _ => none
  | [head], query => head.responder.handleChainHopQuery encode none query
  | node :: next :: rest, query =>
      node.responder.handleChainHopQuery encode
        (some (node.hopStation.ask (fun queryId depthBudget deadlineMs =>
          answerChainHopQuery encode (next :: rest) ⟨queryId, depthBudget, deadlineMs⟩)))
        query

def answerCanaryArm (encode : CanaryReply → Except String Bytes) :
    List (ChainNode View) → CanaryArm → Option CanaryReply
  | [], _ => none
  | [head], arm => (head.responder.handleCanaryArm encode none arm head.clock).2
  | node :: next :: rest, arm =>
      (node.responder.handleCanaryArm encode
        (some (fun forwarded => (node.canaryStation arm).ask (fun queryId _ _ =>
          answerCanaryArm encode (next :: rest) { forwarded with queryId := queryId })
          forwarded.depthBudget forwarded.deadlineMs))
        arm node.clock).2

theorem answerChainHopQuery_eq (encode : ChainHopReply View → Except String Bytes)
    (nodes : List (ChainNode View)) (query : ChainHopQuery) :
    answerChainHopQuery encode nodes query =
      (hopWalk encode).answer (nodes.map ChainNode.hopStation) query.queryId query.depthBudget
        query.deadlineMs := by
  induction nodes generalizing query with
  | nil => rfl
  | cons node rest ih =>
      cases rest with
      | nil => rfl
      | cons next rest =>
          have hupstream : (fun queryId depthBudget deadlineMs =>
              answerChainHopQuery encode (next :: rest) ⟨queryId, depthBudget, deadlineMs⟩) =
              (hopWalk encode).answer ((next :: rest).map ChainNode.hopStation) := by
            funext queryId depthBudget deadlineMs
            exact ih ⟨queryId, depthBudget, deadlineMs⟩
          rw [answerChainHopQuery, hupstream]
          rfl

theorem canaryStation_congr (node : ChainNode View) {arm arm' : CanaryArm}
    (hlisten : arm'.ruleListen = arm.ruleListen) (hprotocol : arm'.ruleProtocol = arm.ruleProtocol)
    (hexpires : arm'.expiresUnixMs = arm.expiresUnixMs) :
    node.canaryStation arm' = node.canaryStation arm := by
  have hinstall : (node.responder.installArm arm' node.clock).2 =
      (node.responder.installArm arm node.clock).2 := by
    unfold Responder.installArm
    rw [hlisten, hprotocol, hexpires]
    split
    · cases node.responder.armTable with
      | none => rfl
      | some table =>
          dsimp only
          split <;> rfl
    · rfl
  rw [ChainNode.canaryStation, ChainNode.canaryStation, Responder.canaryHop, Responder.canaryHop,
    hinstall, hlisten, hprotocol]

theorem answerCanaryArm_eq (encode : CanaryReply → Except String Bytes)
    (nodes : List (ChainNode View)) (arm : CanaryArm) :
    answerCanaryArm encode nodes arm =
      (canaryWalk encode).answer (nodes.map (fun node => node.canaryStation arm)) arm.queryId
        arm.depthBudget arm.deadlineMs := by
  induction nodes generalizing arm with
  | nil => rfl
  | cons node rest ih =>
      cases rest with
      | nil => rfl
      | cons next rest =>
          have hupstream : (fun (depthBudget deadlineMs : UInt32) =>
              (node.canaryStation arm).ask (fun queryId _ _ =>
                answerCanaryArm encode (next :: rest)
                  { Responder.forwardedArm arm depthBudget deadlineMs with queryId := queryId })
                depthBudget deadlineMs) =
              (node.canaryStation arm).ask ((canaryWalk encode).answer
                ((next :: rest).map (fun node => node.canaryStation arm))) := by
            funext depthBudget deadlineMs
            have hstations : ∀ queryId, (next :: rest).map (fun node => node.canaryStation
                { Responder.forwardedArm arm depthBudget deadlineMs with queryId := queryId }) =
                (next :: rest).map (fun node => node.canaryStation arm) := by
              intro queryId
              exact List.map_congr_left fun other _ => canaryStation_congr other rfl rfl rfl
            unfold Station.ask
            cases (node.canaryStation arm).uplink with
            | error e => rfl
            | ok rttMs =>
                dsimp only
                rw [ih, hstations]
                rfl
          rw [answerCanaryArm, Responder.handleCanaryArm, Option.map_some]
          exact congrArg (fun upstream => (canaryWalk encode).handle
            (node.responder.canaryHop arm node.clock) (some upstream) arm.queryId arm.depthBudget
            arm.deadlineMs) hupstream

theorem localHop_hopStation (node : ChainNode View) :
    node.hopStation.localHop ≠ none ↔ node.responder.introspection ≠ none := by
  simp [ChainNode.hopStation, Responder.chainHop]

theorem localHop_canaryStation (arm : CanaryArm) (node : ChainNode View) :
    (node.canaryStation arm).localHop ≠ none ↔ node.responder.introspection ≠ none := by
  simp [ChainNode.canaryStation, Responder.canaryHop]

theorem Walk.budgetLaw_iff_of_served {H : Type} [HopRecord H] (walk : Walk H)
    {station : ChainNode View → Station H}
    (hstation : ∀ node, (station node).localHop ≠ none ↔ node.responder.introspection ≠ none)
    {nodes : List (ChainNode View)} (hne : nodes ≠ []) {queryId depthBudget deadlineMs : UInt32}
    (hserved : walk.Served (nodes.map station) queryId depthBudget deadlineMs) :
    ∃ reply, walk.answer (nodes.map station) queryId depthBudget deadlineMs = some reply ∧
      (BudgetLaw nodes.length depthBudget reply ↔
        (depthBudget = 0 ∨ nodes.length ≤ depthBudget.toNat) ∧
          ∀ node ∈ nodes.take (max depthBudget.toNat 1), node.responder.introspection ≠ none) := by
  have hne' : nodes.map station ≠ [] := fun hnil => hne (List.map_eq_nil_iff.1 hnil)
  obtain ⟨reply, hreply, hreports⟩ := walk.answer_of_served hne' hserved
  refine ⟨reply, hreply, ?_⟩
  have hlaw := budgetLaw_iff_of_reports hne' hreports
  rw [List.length_map, reached, ← List.map_take, List.forall_mem_map] at hlaw
  rw [hlaw]
  simp only [hstation]

/--
A budget counts the responder itself: the law of the documented budget holds
for a zero budget and for one that the chain does not use up, and for no other.
-/
theorem depth_budget_law_iff (encodeHops : ChainHopReply View → Except String Bytes)
    (encodeCanaries : CanaryReply → Except String Bytes) (nodes : List (ChainNode View))
    (hne : nodes ≠ []) :
    (∀ query : ChainHopQuery,
      (hopWalk encodeHops).Served (nodes.map ChainNode.hopStation) query.queryId query.depthBudget
        query.deadlineMs →
      ∃ reply, answerChainHopQuery encodeHops nodes query = some reply ∧
        (Walk.BudgetLaw nodes.length query.depthBudget reply ↔
          (query.depthBudget = 0 ∨ nodes.length ≤ query.depthBudget.toNat) ∧
            ∀ node ∈ nodes.take (max query.depthBudget.toNat 1),
              node.responder.introspection ≠ none)) ∧
    (∀ arm : CanaryArm,
      (canaryWalk encodeCanaries).Served (nodes.map (fun node => node.canaryStation arm))
        arm.queryId arm.depthBudget arm.deadlineMs →
      ∃ reply, answerCanaryArm encodeCanaries nodes arm = some reply ∧
        (Walk.BudgetLaw nodes.length arm.depthBudget reply ↔
          (arm.depthBudget = 0 ∨ nodes.length ≤ arm.depthBudget.toNat) ∧
            ∀ node ∈ nodes.take (max arm.depthBudget.toNat 1),
              node.responder.introspection ≠ none)) := by
  constructor
  · intro query hserved
    rw [answerChainHopQuery_eq]
    exact Walk.budgetLaw_iff_of_served _ localHop_hopStation hne hserved
  · intro arm hserved
    rw [answerCanaryArm_eq]
    exact Walk.budgetLaw_iff_of_served _ (localHop_canaryStation arm) hne hserved

def bareNode : ChainNode Unit where
  responder := ⟨some ⟨(), .x25519 .zero⟩, none, 0, none, .empty, none⟩
  uplink := .ok 1
  nextQueryId := 0
  clock := ⟨0, 0, 0⟩

def bareArm (depthBudget : UInt32) : CanaryArm :=
  ⟨0, depthBudget, 5000, ⟨.v4 0, 1⟩, .tcp, ⟨List.replicate 32 (.ofNat 1), rfl⟩, 0⟩

/-- With a budget of one additional hop the responder of a chain of two lists itself only. -/
theorem one_more_hop_is_not_asked :
    (hopWalk (fun _ => .ok [])).Served ([bareNode, bareNode].map ChainNode.hopStation) 0 1 5000 ∧
      (∃ reply, answerChainHopQuery (fun _ => .ok []) [bareNode, bareNode] ⟨0, 1, 5000⟩ =
        some reply ∧ reply.hops.length = 1 ∧ reply.isPartial = true ∧ ¬ Walk.BudgetLaw 2 1 reply) ∧
      (canaryWalk (fun _ => .ok [])).Served
        ([bareNode, bareNode].map (fun node => node.canaryStation (bareArm 1))) 0 1 5000 ∧
      (∃ reply, answerCanaryArm (fun _ => .ok []) [bareNode, bareNode] (bareArm 1) =
        some reply ∧ reply.hops.length = 1 ∧ reply.isPartial = true ∧
        ¬ Walk.BudgetLaw 2 1 reply) := by
  refine ⟨⟨⟨[], rfl, by decide⟩, fun _ h => absurd h (by decide)⟩, ⟨_, rfl, rfl, rfl, ?_⟩,
    ⟨⟨[], rfl, by decide⟩, fun _ h => absurd h (by decide)⟩, ⟨_, rfl, rfl, rfl, ?_⟩⟩
  · exact fun hlaw => absurd hlaw.1 (by decide)
  · exact fun hlaw => absurd hlaw.1 (by decide)

theorem depth_budget_law_two_nodes :
    (∃ reply, answerChainHopQuery (fun _ => .ok []) [bareNode, bareNode] ⟨0, 2, 5000⟩ = some reply ∧
      Walk.BudgetLaw 2 2 reply) ∧
    (∃ reply, answerCanaryArm (fun _ => .ok []) [bareNode, bareNode] (bareArm 2) = some reply ∧
      Walk.BudgetLaw 2 2 reply) := by
  have hnodes : ∀ node ∈ [bareNode, bareNode], node.responder.introspection ≠ none := by
    simp [bareNode]
  have hlaw := depth_budget_law_iff (fun _ => .ok []) (fun _ => .ok []) [bareNode, bareNode]
    (by simp)
  obtain ⟨reply, hreply, hiff⟩ := hlaw.1 ⟨0, 2, 5000⟩
    ⟨⟨[], rfl, by decide⟩, fun _ _ => ⟨⟨1, rfl⟩, by decide, [], rfl, by decide⟩⟩
  obtain ⟨canary, hcanary, hiff'⟩ := hlaw.2 (bareArm 2)
    ⟨⟨[], rfl, by decide⟩, fun _ _ => ⟨⟨1, rfl⟩, by decide, [], rfl, by decide⟩⟩
  refine ⟨⟨reply, hreply, hiff.2 ⟨.inr (by decide), ?_⟩⟩,
    ⟨canary, hcanary, hiff'.2 ⟨.inr (by decide), ?_⟩⟩⟩
  · exact fun node hnode => hnodes node (List.mem_of_mem_take hnode)
  · exact fun node hnode => hnodes node (List.mem_of_mem_take hnode)

end Yggdrasil.Chain
