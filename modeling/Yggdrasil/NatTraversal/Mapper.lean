import Yggdrasil.Foundation.Keyed
import Yggdrasil.Foundation.Run
import Yggdrasil.NatTraversal.Rpc

/-!
# The mapper

The task that keeps the gateway's mappings in step with the targets: it adds and
drops mappings when the rules change, renews them at half their lifetime, backs
off when the gateway stops answering, and releases all of them at shutdown.

Whatever the task does not decide itself is drawn from a `World`: what the
socket sends and receives, random bytes, the time, and the order in which a
hash table is walked.  Everything is indexed by one counter, so that no two
draws are the same and time does not run backwards.
-/

namespace Yggdrasil.NatTraversal

open Foundation Ratatoskr

structure World where
  attempt : Nat → Attempt
  nonce : Nat → Nonce
  clock : Nat → Nat
  /-- Binding the RPC socket and connecting it to the gateway. -/
  bind : Nat → Except String Unit
  /-- Whether the datagram of a release leaves the host, at shutdown before the deadline. -/
  unmap : Nat → Bool
  keyOrder : Nat → List MappingKey → List MappingKey
  targetOrder : Nat → List MappingTarget → List MappingTarget
  clock_mono : Monotone clock
  keyOrder_perm : ∀ draw keys, (keyOrder draw keys).Perm keys
  targetOrder_perm : ∀ draw targets, (targetOrder draw targets).Perm targets

inductive NatTraversalMode where
  | off
  | pcp
  | natPmp
  | auto
  deriving DecidableEq, Repr

structure NatMapperParams where
  mode : NatTraversalMode
  localSource : Ipv4Addr
  acceptListen : Option SocketAddr
  httpsListen : SocketAddr
  httpsHttp3 : Bool
  /-- `NatMapper::spawn` refuses to start a disabled mapper. -/
  enabled : mode ≠ .off

structure ActiveMapping where
  target : MappingTarget
  externalPort : UInt16
  externalAddr : Option Ipv4Addr
  assignedLifetime : Nat
  renewAt : Nat
  lastRenewed : Nat
  protocolUsed : NatProtocol
  pcpNonce : Option Nonce
  deriving DecidableEq, Repr

inductive NatState where
  | disabled
  | discovering
  | active
  | backoff
  deriving DecidableEq, Repr

inductive MapperError where
  | rpcSocket (message : String)
  | rpc (error : RpcError)
  deriving DecidableEq, Repr

def MapperError.toString (text : AddrText) : MapperError → String
  | rpcSocket message => "rpc socket: " ++ message
  | rpc error => error.toString text

/-- What passes between the mapper and the gateway, and what the mapper makes of it. -/
inductive LogEntry where
  | call (request : MapRequest) (outcome : Except RpcError MapResponse)
  | released (request : MapRequest) (sent : Bool)
  | confirmed (key : MappingKey)
  | epochReset (proto : NatProtocol)
  /-- A backoff probe has emptied the table, to build it anew. -/
  | cleared
  /-- The probe has requested again what was in the table. -/
  | rebuilt
  deriving DecidableEq

structure Reconciler where
  params : NatMapperParams
  mappings : AList (fun _ : MappingKey => ActiveMapping) := ∅
  nonces : AList (fun _ : MappingKey => Nonce) := ∅
  state : NatState := .discovering
  currentProtocol : Option NatProtocol
  lastEpoch : Option UInt32 := none
  externalIp : Option Ipv4Addr := none
  consecutiveErrors : Nat := 0
  backoffAttempt : Nat := 0
  lastError : Option MapperError := none
  rpcSocket : Bool := false
  /-- Where the event loop sleeps until. -/
  nextTick : Nat := 0
  running : Bool := true
  drawn : Nat := 0
  log : List LogEntry := []

def errorThresholdToBackoff : Nat := 3

def backoffSchedule : List Nat := [30000, 60000, 300000, 900000]

namespace Reconciler

def new (params : NatMapperParams) : Reconciler :=
  { params := params
    currentProtocol := match params.mode with
      | .pcp | .auto => some .pcp
      | .natPmp => some .natPmp
      | .off => none }

variable (world : World)

def targets (r : Reconciler) : List MappingTarget :=
  world.targetOrder r.drawn (r.mappings.entries.map fun entry => entry.2.target)

def transitionBackoff (r : Reconciler) (why : MapperError) : Reconciler :=
  { r with state := .backoff, lastError := some why }

def ensureRpcSocket (r : Reconciler) : Except String Unit × Reconciler :=
  if r.rpcSocket then (.ok (), r)
  else
    match world.bind r.drawn with
    | .error message => (.error message, { r with drawn := r.drawn + 1 })
    | .ok () => (.ok (), { r with rpcSocket := true, drawn := r.drawn + 1 })

def nonceFor (r : Reconciler) (key : MappingKey) : Nonce × Reconciler :=
  match r.nonces.lookup key with
  | some nonce => (nonce, r)
  | none =>
      (world.nonce r.drawn,
        { r with nonces := r.nonces.insert key (world.nonce r.drawn), drawn := r.drawn + 1 })

def tryMapVia (r : Reconciler) (proto : NatProtocol) (target : MappingTarget) (nonce : Nonce) :
    Except RpcError (MapAck × UInt32) × Reconciler :=
  if r.rpcSocket then
    let request := mapRequest proto target nonce
    let outcome := request.call world.attempt r.drawn
    (outcome.1.bind (MapResponse.ack nonce),
      { r with drawn := outcome.2, log := .call request outcome.1 :: r.log })
  else (.error .noSocket, r)

def record (r : Reconciler) (proto : NatProtocol) (target : MappingTarget) (nonce : Nonce)
    (ack : MapAck) : Reconciler :=
  let now := world.clock r.drawn
  let assigned := ack.assignedLifetimeSecs.toNat * 1000
  { r with
    mappings := r.mappings.insert target.key
      { target := target
        externalPort := ack.externalPort
        externalAddr := ack.externalAddr
        assignedLifetime := assigned
        renewAt := now + assigned / 2
        lastRenewed := now
        protocolUsed := proto
        pcpNonce := if proto = .pcp then some nonce else none }
    drawn := r.drawn + 1
    log := .confirmed target.key :: r.log }

def sendMapRequestInline (r : Reconciler) (target : MappingTarget) : Reconciler :=
  let stored := r.nonceFor world target.key
  let proto := stored.2.currentProtocol.getD .pcp
  match stored.2.tryMapVia world proto target stored.1 with
  | (.ok (ack, _), r) => r.record world proto target stored.1 ack
  | (.error _, r) => r

def epochRegressed (r : Reconciler) (newEpoch : UInt32) : Bool :=
  match r.lastEpoch with
  | some prev => newEpoch + 16 < prev
  | none => false

def noteEpoch (r : Reconciler) (newEpoch : UInt32) : Reconciler :=
  if r.epochRegressed newEpoch then
    (r.targets world).foldl (sendMapRequestInline world)
      { r with
        mappings := ∅, nonces := ∅, lastEpoch := some newEpoch, drawn := r.drawn + 1 }
  else { r with lastEpoch := some newEpoch }

def protocolsToTry (r : Reconciler) : List NatProtocol :=
  match r.params.mode with
  | .pcp => [.pcp]
  | .natPmp => [.natPmp]
  | .auto => if r.currentProtocol = some .natPmp then [.natPmp] else [.pcp, .natPmp]
  | .off => []

def established (r : Reconciler) (proto : NatProtocol) (target : MappingTarget) (nonce : Nonce)
    (ack : MapAck) (epoch : UInt32) : Reconciler :=
  let noted :=
    if r.epochRegressed epoch then
      noteEpoch world { r with log := .epochReset proto :: r.log } epoch
    else noteEpoch world r epoch
  let recorded := record world { noted with currentProtocol := some proto } proto target nonce ack
  { recorded with
    externalIp := ack.externalAddr.or recorded.externalIp
    state := .active, consecutiveErrors := 0, backoffAttempt := 0, lastError := none }

/-- What `send_map_request` does once every protocol has failed. -/
def failed (r : Reconciler) (key : MappingKey) (error : RpcError) : Reconciler :=
  let counted :=
    { r with
      lastError := some (.rpc error)
      consecutiveErrors := min (r.consecutiveErrors + 1) (2 ^ 32 - 1)
      mappings := if error.isTransient then r.mappings else r.mappings.erase key }
  if errorThresholdToBackoff ≤ counted.consecutiveErrors then counted.transitionBackoff (.rpc error)
  else counted

def tryProtocols (target : MappingTarget) (nonce : Nonce) :
    List NatProtocol → Option RpcError → Reconciler → Reconciler
  | [], none, r => r
  | [], some error, r => r.failed target.key error
  | proto :: rest, _, r =>
      match r.tryMapVia world proto target nonce with
      | (.ok (ack, epoch), r) => r.established world proto target nonce ack epoch
      | (.error error, r) =>
          if r.params.mode = .auto ∧ proto = .pcp ∧ error.shouldFallBackToNatpmp = true then
            tryProtocols target nonce rest (some error) r
          else r.failed target.key error

/-- `create_one` and `renew_one`: they differ in the name of a metric. -/
def sendMapRequest (r : Reconciler) (target : MappingTarget) : Reconciler :=
  let stored := r.nonceFor world target.key
  tryProtocols world target stored.1 r.protocolsToTry none stored.2

def releaseNonce (r : Reconciler) (mapping : ActiveMapping) : Nonce :=
  mapping.pcpNonce.getD ((r.nonces.lookup mapping.target.key).getD 0)

def sendUnmap (r : Reconciler) (mapping : ActiveMapping) (nonce : Nonce) : Reconciler :=
  { r with
    drawn := r.drawn + 1
    log := .released (unmapRequest mapping.protocolUsed mapping.target nonce)
      (r.rpcSocket && world.unmap r.drawn) :: r.log }

def releaseOne (r : Reconciler) (mapping : ActiveMapping) : Reconciler :=
  let sent := r.sendUnmap world mapping (r.releaseNonce mapping)
  { sent with nonces := sent.nonces.erase mapping.target.key }

def shutdownNonce (mapping : ActiveMapping) : Nonce := mapping.pcpNonce.getD 0

def sendUnmaps (r : Reconciler) (mappings : List ActiveMapping) : Reconciler :=
  mappings.foldl (fun r mapping => r.sendUnmap world mapping (shutdownNonce mapping)) r

def releaseAllWithDeadline (r : Reconciler) : Reconciler :=
  if r.mappings.entries = [] ∨ r.rpcSocket = false then r
  else
    { r.sendUnmaps world (r.mappings.entries.map Sigma.snd) with mappings := ∅, nonces := ∅ }

def desiredTargets (r : Reconciler) (rules : RuleSet) : List MappingTarget :=
  let https : Option HttpsTarget :=
    if rules.routes = [] then none else some ⟨r.params.httpsListen, r.params.httpsHttp3⟩
  (enumerateTargets r.params.localSource rules.rules r.params.acceptListen https).targets

def byKey (targets : List MappingTarget) : AList (fun _ : MappingKey => MappingTarget) :=
  targets.foldl (fun table target =>
    if target.key ∈ table then table else table.insert target.key target) ∅

def dropOne (r : Reconciler) (key : MappingKey) : Reconciler :=
  match r.mappings.lookup key with
  | none => r
  | some mapping => releaseOne world { r with mappings := r.mappings.erase key } mapping

def reconcileTargets (rules : RuleSet) (r : Reconciler) : Reconciler :=
  match r.ensureRpcSocket world with
  | (.error message, r) => r.transitionBackoff (.rpcSocket message)
  | (.ok (), r) =>
      let desired := byKey (world.targetOrder r.drawn (r.desiredTargets rules))
      let toDrop := world.keyOrder r.drawn (r.mappings.keys.filter (fun key => key ∉ desired))
      let dropped := toDrop.foldl (dropOne world) { r with drawn := r.drawn + 1 }
      let missing := desired.entries.filter (fun entry => entry.1 ∉ dropped.mappings)
      let toAdd := world.targetOrder dropped.drawn (missing.map Sigma.snd)
      toAdd.foldl (sendMapRequest world) { dropped with drawn := dropped.drawn + 1 }

def renewOne (r : Reconciler) (key : MappingKey) : Reconciler :=
  match r.mappings.lookup key with
  | none => r
  | some mapping => r.sendMapRequest world mapping.target

def refreshDueMappings (r : Reconciler) : Reconciler :=
  let now := world.clock r.drawn
  let due := r.mappings.entries.filter (fun entry => entry.2.renewAt ≤ now)
  (world.keyOrder r.drawn (due.map Sigma.fst)).foldl (renewOne world)
    { r with drawn := r.drawn + 1 }

def clearTable (r : Reconciler) : Reconciler :=
  { r with
    mappings := ∅, nonces := ∅, consecutiveErrors := 0, state := .discovering
    drawn := r.drawn + 1, log := .cleared :: r.log }

/-- The first half of `backoff_probe`: what was in the table is requested from scratch. -/
def rebuildTable (r : Reconciler) : Reconciler :=
  let rebuilt := (r.targets world).foldl (sendMapRequest world) r.clearTable
  { rebuilt with log := .rebuilt :: rebuilt.log }

def backoffProbe (rules : RuleSet) (r : Reconciler) : Reconciler :=
  let probed := reconcileTargets world rules (r.rebuildTable world)
  if probed.state = .backoff then
    { probed with
      backoffAttempt := min (probed.backoffAttempt + 1) (backoffSchedule.length - 1) }
  else { probed with backoffAttempt := 0 }

def computeNextTick (r : Reconciler) (now : Nat) : Nat :=
  match r.state with
  | .discovering => now + 2000
  | .active => (r.mappings.entries.map fun entry => entry.2.renewAt).min?.getD (now + 60000)
  | .backoff => now + backoffSchedule.getD r.backoffAttempt 900000
  | .disabled => now + 3600000

def awaitEvent (r : Reconciler) : Reconciler :=
  { r with nextTick := r.computeNextTick (world.clock r.drawn), drawn := r.drawn + 1 }

inductive Event where
  | shutdown
  | watchClosed
  | rulesChanged (rules : RuleSet)
  | tick (rules : RuleSet)

def start (params : NatMapperParams) (rules : RuleSet) : Reconciler :=
  let opened := match ensureRpcSocket world (new params) with
    | (.error message, r) => r.transitionBackoff (.rpcSocket message)
    | (.ok (), r) => r
  awaitEvent world (reconcileTargets world rules opened)

/-- Nothing is taken by a mapper that has exited, nor a tick before its time. -/
def step (r : Reconciler) (event : Event) : Option Reconciler :=
  if r.running = false then none
  else
    match event with
    | .shutdown | .watchClosed => some { r.releaseAllWithDeadline world with running := false }
    | .rulesChanged rules => some (awaitEvent world (reconcileTargets world rules r))
    | .tick rules =>
        if world.clock r.drawn < r.nextTick then none
        else
          let woken := { r with drawn := r.drawn + 1 }
          match r.state with
          | .discovering => some (awaitEvent world (reconcileTargets world rules woken))
          | .active => some (awaitEvent world (woken.refreshDueMappings world))
          | .backoff => some (awaitEvent world (backoffProbe world rules woken))
          | .disabled => none

end Reconciler

end Yggdrasil.NatTraversal
