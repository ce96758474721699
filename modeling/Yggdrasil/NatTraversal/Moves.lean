import Yggdrasil.NatTraversal.Mapper

/-!
# What a pass of the mapper can do

Every pass is a sequence of a few acts, each with what the mapper knows when it
acts.  What an act does to the table, the nonces, the socket and the log is a
path of moves; what else a function changes is in the move `tune`.  An
invariant of the mapper is shown for the acts, or for the moves if it needs no
more, and holds after every pass.  The two places that empty the table
otherwise, the start of a backoff probe and the release at shutdown, are not
acts.
-/

namespace Yggdrasil.NatTraversal

open Foundation Ratatoskr

namespace Reconciler

structure SameTable (r r' : Reconciler) : Prop where
  mappings : r'.mappings = r.mappings
  nonces : r'.nonces = r.nonces
  rpcSocket : r'.rpcSocket = r.rpcSocket
  running : r'.running = r.running
  log : r'.log = r.log

def Failed (r : Reconciler) (key : MappingKey) (error : RpcError) : Prop :=
  (error = .noSocket ∧ r.rpcSocket = false) ∨
    ∃ request outcome earlier, r.log = .call request outcome :: earlier ∧
      request.key = key ∧ callError outcome = some error

inductive Move : Reconciler → Reconciler → Prop
  | tune {r r' : Reconciler} (h : SameTable r r') : Move r r'
  | openSocket (r : Reconciler) : Move r { r with rpcSocket := true }
  | drawNonce {r : Reconciler} {key : MappingKey} (nonce : Nonce)
      (hnew : r.nonces.lookup key = none) :
      Move r { r with nonces := r.nonces.insert key nonce }
  | call (r : Reconciler) (request : MapRequest) (outcome : Except RpcError MapResponse) :
      Move r { r with log := .call request outcome :: r.log }
  | confirm {r : Reconciler} (mapping : ActiveMapping) (hsocket : r.rpcSocket = true)
      (hnonce : mapping.protocolUsed = .pcp → ∃ nonce, mapping.pcpNonce = some nonce ∧
        (r.nonces.lookup mapping.target.key = some nonce ∨ .epochReset .pcp ∈ r.log)) :
      Move r
        { r with
          mappings := r.mappings.insert mapping.target.key mapping
          log := .confirmed mapping.target.key :: r.log }
  | forget {r : Reconciler} {key : MappingKey} {error : RpcError}
      (hfailed : r.Failed key error) (hpermanent : error.isTransient = false) :
      Move r { r with mappings := r.mappings.erase key }
  | reset (r : Reconciler) (proto : NatProtocol) :
      Move r { r with mappings := ∅, nonces := ∅, log := .epochReset proto :: r.log }
  | release {r : Reconciler} {key : MappingKey} {mapping : ActiveMapping}
      (hheld : r.mappings.lookup key = some mapping) (nonce : Nonce) (sent : Bool) :
      Move r
        { r with
          mappings := r.mappings.erase key
          nonces := r.nonces.erase mapping.target.key
          log := .released (unmapRequest mapping.protocolUsed mapping.target nonce) sent :: r.log }

abbrev Path : Reconciler → Reconciler → Prop := Relation.ReflTransGen Move

variable {r r' : Reconciler} {proto : NatProtocol} {target : MappingTarget} {nonce : Nonce}

theorem Path.tune (h : SameTable r r') : Path r r' := .single (.tune h)

theorem Path.of_move {moved : Reconciler} (hmove : Move r moved) (h : SameTable moved r') :
    Path r r' :=
  (Relation.ReflTransGen.single hmove).tail (.tune h)

theorem Path.invariant {P : Reconciler → Prop} (hmove : ∀ {r r'}, Move r r' → P r → P r')
    (hpath : Path r r') (h : P r) : P r' := by
  induction hpath with
  | refl => exact h
  | tail _ hlast ih => exact hmove hlast ih

theorem Move.log_suffix (h : Move r r') : r.log <:+ r'.log := by
  cases h with
  | tune h => rw [h.log]
  | openSocket => exact List.suffix_refl _
  | drawNonce => exact List.suffix_refl _
  | call => exact List.suffix_cons _ _
  | confirm => exact List.suffix_cons _ _
  | forget => exact List.suffix_refl _
  | reset => exact List.suffix_cons _ _
  | release => exact List.suffix_cons _ _

theorem Path.log_suffix (hpath : Path r r') : r.log <:+ r'.log :=
  hpath.invariant (P := fun reached => r.log <:+ reached.log)
    (fun hmove h => h.trans hmove.log_suffix) (List.suffix_refl _)

theorem Move.socket (h : Move r r') (hsocket : r.rpcSocket = true) : r'.rpcSocket = true := by
  cases h with
  | tune h => rw [h.rpcSocket, hsocket]
  | openSocket => rfl
  | drawNonce => exact hsocket
  | call => exact hsocket
  | confirm => exact hsocket
  | forget => exact hsocket
  | reset => exact hsocket
  | release => exact hsocket

theorem Path.socket (hpath : Path r r') (hsocket : r.rpcSocket = true) : r'.rpcSocket = true :=
  hpath.invariant (P := fun reached => reached.rpcSocket = true) Move.socket hsocket

theorem Move.running (h : Move r r') : r'.running = r.running := by
  cases h with
  | tune h => exact h.running
  | _ => rfl

theorem Path.running (hpath : Path r r') : r'.running = r.running :=
  hpath.invariant (P := fun reached => reached.running = r.running)
    (fun hmove h => hmove.running.trans h) rfl

def Granted (log : List LogEntry) (proto : NatProtocol) (target : MappingTarget) (nonce : Nonce)
    (ack : MapAck) : Prop :=
  ∃ response epoch, .call (mapRequest proto target nonce) (.ok response) ∈ log ∧
    response.ack nonce = .ok (ack, epoch)

theorem Granted.mono {log log' : List LogEntry} {ack : MapAck}
    (h : Granted log proto target nonce ack) (hsuffix : log <:+ log') :
    Granted log' proto target nonce ack := by
  obtain ⟨response, epoch, hcall, hack⟩ := h
  exact ⟨response, epoch, hsuffix.subset hcall, hack⟩

inductive Act (world : World) : Reconciler → Reconciler → Prop
  | tune {r r' : Reconciler} (h : SameTable r r') (hdrawn : r.drawn ≤ r'.drawn) : Act world r r'
  | openSocket (r : Reconciler) : Act world r { r with rpcSocket := true, drawn := r.drawn + 1 }
  | drawNonce {r : Reconciler} {key : MappingKey} (hnew : r.nonces.lookup key = none) :
      Act world r
        { r with nonces := r.nonces.insert key (world.nonce r.drawn), drawn := r.drawn + 1 }
  | call {r : Reconciler} {target : MappingTarget} {nonce : Nonce} (hsocket : r.rpcSocket = true)
      (hnonce : r.nonces.lookup target.key = some nonce) (proto : NatProtocol) :
      Act world r (r.tryMapVia world proto target nonce).2
  | record {r : Reconciler} {proto : NatProtocol} {target : MappingTarget} {nonce : Nonce}
      {ack : MapAck} (hsocket : r.rpcSocket = true)
      (hnonce : proto = .pcp →
        r.nonces.lookup target.key = some nonce ∨ .epochReset .pcp ∈ r.log)
      (hgranted : Granted r.log proto target nonce ack) :
      Act world r (r.record world proto target nonce ack)
  | failed {r : Reconciler} {key : MappingKey} {error : RpcError} (hfailed : r.Failed key error) :
      Act world r (r.failed key error)
  | reset (r : Reconciler) (proto : NatProtocol) :
      Act world r { r with mappings := ∅, nonces := ∅, log := .epochReset proto :: r.log }
  | drop (r : Reconciler) (key : MappingKey) : Act world r (r.dropOne world key)

abbrev Acts (world : World) : Reconciler → Reconciler → Prop := Relation.ReflTransGen (Act world)

variable (world : World)

theorem path_tryMapVia (r : Reconciler) (proto : NatProtocol) (target : MappingTarget)
    (nonce : Nonce) : Path r (r.tryMapVia world proto target nonce).2 := by
  unfold tryMapVia
  split
  · exact Path.of_move
      (.call r (mapRequest proto target nonce)
        ((mapRequest proto target nonce).call world.attempt r.drawn).1)
      ⟨rfl, rfl, rfl, rfl, rfl⟩
  · exact .refl

theorem path_record (hsocket : r.rpcSocket = true) (hnonce : proto = .pcp →
      r.nonces.lookup target.key = some nonce ∨ .epochReset .pcp ∈ r.log) (ack : MapAck) :
    Path r (r.record world proto target nonce ack) := by
  let now := world.clock r.drawn
  let assigned := ack.assignedLifetimeSecs.toNat * 1000
  let mapping : ActiveMapping :=
    { target := target
      externalPort := ack.externalPort
      externalAddr := ack.externalAddr
      assignedLifetime := assigned
      renewAt := now + assigned / 2
      lastRenewed := now
      protocolUsed := proto
      pcpNonce := if proto = .pcp then some nonce else none }
  exact Path.of_move
    (.confirm mapping hsocket fun hpcp => ⟨nonce, if_pos hpcp, hnonce hpcp⟩)
    ⟨rfl, rfl, rfl, rfl, rfl⟩

theorem path_failed {key : MappingKey} {error : RpcError}
    (hfailed : r.Failed key error) : Path r (r.failed key error) := by
  cases htransient : error.isTransient with
  | true =>
      refine Path.tune ?_
      unfold failed
      rw [htransient]
      dsimp only
      split
      · exact ⟨rfl, rfl, rfl, rfl, rfl⟩
      · exact ⟨rfl, rfl, rfl, rfl, rfl⟩
  | false =>
      refine Path.of_move (.forget hfailed htransient) ?_
      unfold failed
      rw [htransient]
      dsimp only
      split
      · exact ⟨rfl, rfl, rfl, rfl, rfl⟩
      · exact ⟨rfl, rfl, rfl, rfl, rfl⟩

theorem path_dropOne (r : Reconciler) (key : MappingKey) : Path r (r.dropOne world key) := by
  unfold dropOne
  split
  · exact .refl
  · rename_i mapping hheld
    exact Path.of_move (.release hheld _ _) ⟨rfl, rfl, rfl, rfl, rfl⟩

variable {world}

theorem Act.path (h : Act world r r') : Path r r' := by
  cases h with
  | tune h => exact .tune h
  | openSocket => exact .of_move (.openSocket r) ⟨rfl, rfl, rfl, rfl, rfl⟩
  | drawNonce hnew => exact .of_move (.drawNonce _ hnew) ⟨rfl, rfl, rfl, rfl, rfl⟩
  | call => exact path_tryMapVia world r _ _ _
  | record hsocket hnonce => exact path_record world hsocket hnonce _
  | failed hfailed => exact path_failed hfailed
  | reset => exact .single (.reset r _)
  | drop => exact path_dropOne world r _

theorem Acts.path (h : Acts world r r') : Path r r' := by
  induction h with
  | refl => exact .refl
  | tail _ hlast ih => exact ih.trans hlast.path

theorem Acts.log_suffix (h : Acts world r r') : r.log <:+ r'.log := h.path.log_suffix

theorem Acts.socket (h : Acts world r r') (hsocket : r.rpcSocket = true) : r'.rpcSocket = true :=
  h.path.socket hsocket

theorem Acts.running (h : Acts world r r') : r'.running = r.running := h.path.running

theorem Acts.tune (h : SameTable r r') (hdrawn : r.drawn ≤ r'.drawn) : Acts world r r' :=
  .single (.tune h hdrawn)

theorem Acts.from_tuned {tuned : Reconciler} (hacts : Acts world tuned r') (h : SameTable r tuned)
    (hdrawn : r.drawn ≤ tuned.drawn) : Acts world r r' :=
  hacts.head (.tune h hdrawn)

theorem Acts.then_tune {acted : Reconciler} (hacts : Acts world r acted) (h : SameTable acted r')
    (hdrawn : acted.drawn ≤ r'.drawn) : Acts world r r' :=
  hacts.tail (.tune h hdrawn)

theorem Acts.after_draw (h : Acts world { r with drawn := r.drawn + 1 } r') : Acts world r r' :=
  h.from_tuned ⟨rfl, rfl, rfl, rfl, rfl⟩ (Nat.le_succ _)

theorem Acts.foldl {α : Type} {f : Reconciler → α → Reconciler}
    (hf : ∀ r item, Acts world r (f r item)) (items : List α) (r : Reconciler) :
    Acts world r (items.foldl f r) := by
  induction items generalizing r with
  | nil => exact .refl
  | cons item rest ih => exact (hf r item).trans (ih (f r item))

theorem Acts.invariant {P : Reconciler → Prop} (hact : ∀ {r r'}, Act world r r' → P r → P r')
    (hacts : Acts world r r') (h : P r) : P r' := by
  induction hacts with
  | refl => exact h
  | tail _ hlast ih => exact hact hlast ih

/-! ## Requests -/

theorem log_failed (r : Reconciler) (key : MappingKey) (error : RpcError) :
    (r.failed key error).log = r.log := by
  unfold failed
  dsimp only
  split
  · rfl
  · rfl

variable (world) in
theorem nonceFor_spec (r : Reconciler) (key : MappingKey) :
    Acts world r (r.nonceFor world key).2 ∧
      (r.nonceFor world key).2.nonces.lookup key = some (r.nonceFor world key).1 := by
  unfold nonceFor
  cases hstored : r.nonces.lookup key with
  | some nonce => exact ⟨.refl, hstored⟩
  | none => exact ⟨.single (.drawNonce hstored), AList.lookup_insert _⟩

def called (r : Reconciler) (request : MapRequest) (outcome : Except RpcError MapResponse)
    (drawn : Nat) : Reconciler :=
  { r with drawn := drawn, log := .call request outcome :: r.log }

inductive Tried (r : Reconciler) (request : MapRequest) (nonce : Nonce) :
    Except RpcError (MapAck × UInt32) × Reconciler → Prop
  | closed (hsocket : r.rpcSocket = false) : Tried r request nonce (.error .noSocket, r)
  | answered {response : MapResponse} {answer : MapAck × UInt32} {drawn : Nat}
      (hsocket : r.rpcSocket = true) (hdrawn : r.drawn ≤ drawn)
      (hack : response.ack nonce = .ok answer) (hgranted : response.error? = none) :
      Tried r request nonce (.ok answer, r.called request (.ok response) drawn)
  | refused {outcome : Except RpcError MapResponse} {error : RpcError} {drawn : Nat}
      (hsocket : r.rpcSocket = true) (hdrawn : r.drawn ≤ drawn)
      (herror : callError outcome = some error) :
      Tried r request nonce (.error error, r.called request outcome drawn)

variable (world) in
theorem tried_tryMapVia (r : Reconciler) (proto : NatProtocol) (target : MappingTarget)
    (nonce : Nonce) :
    Tried r (mapRequest proto target nonce) nonce (r.tryMapVia world proto target nonce) := by
  have hdrawn := le_call world.attempt r.drawn (mapRequest proto target nonce)
  unfold tryMapVia
  split
  · rename_i hsocket
    dsimp only
    cases hcall : ((mapRequest proto target nonce).call world.attempt r.drawn).1 with
    | error cause => exact .refused hsocket hdrawn rfl
    | ok response =>
        rcases ack_of_call hcall with ⟨⟨answer, hanswer⟩, hgranted⟩ | ⟨cause, hcause, herror⟩
        · have hbind : Except.bind (.ok response) (MapResponse.ack nonce) = .ok answer := hanswer
          rw [hbind]
          exact .answered hsocket hdrawn hanswer hgranted
        · have hbind : Except.bind (.ok response) (MapResponse.ack nonce) = .error cause := hcause
          rw [hbind]
          exact .refused hsocket hdrawn herror
  · rename_i hsocket
    exact .closed (by simpa using hsocket)

def Asked (r asked : Reconciler) : Prop :=
  ∃ nonces drawn calls, r.drawn ≤ drawn ∧
    asked = { r with nonces := nonces, drawn := drawn, log := calls ++ r.log }

theorem Asked.log_suffix {asked : Reconciler} (h : Asked r asked) : r.log <:+ asked.log := by
  obtain ⟨nonces, drawn, calls, -, rfl⟩ := h
  exact List.suffix_append _ _

theorem Asked.called {asked : Reconciler} (h : Asked r asked) (request : MapRequest)
    (outcome : Except RpcError MapResponse) {drawn : Nat} (hdrawn : asked.drawn ≤ drawn) :
    Asked r (asked.called request outcome drawn) := by
  obtain ⟨nonces, before, calls, hle, rfl⟩ := h
  exact ⟨nonces, drawn, .call request outcome :: calls, hle.trans hdrawn, rfl⟩

theorem Asked.tried {asked : Reconciler} {request : MapRequest}
    {result : Except RpcError (MapAck × UInt32) × Reconciler} (h : Asked r asked)
    (htried : Tried asked request nonce result) : Asked r result.2 := by
  cases htried with
  | closed => exact h
  | answered _ hdrawn => exact h.called request _ hdrawn
  | refused _ hdrawn => exact h.called request _ hdrawn

variable (world) in
theorem asked_nonceFor (r : Reconciler) (key : MappingKey) : Asked r (r.nonceFor world key).2 := by
  unfold nonceFor
  split
  · exact ⟨_, _, [], le_rfl, rfl⟩
  · exact ⟨_, _, [], Nat.le_succ r.drawn, rfl⟩

def Refused (r asked : Reconciler) (key : MappingKey) (error : RpcError) : Prop :=
  (error = .noSocket ∧ asked.rpcSocket = false) ∨
    ∃ request outcome earlier, asked.log = .call request outcome :: earlier ∧
      r.log <:+ earlier ∧ request.key = key ∧ callError outcome = some error

theorem Refused.failed {asked : Reconciler} {key : MappingKey} {error : RpcError}
    (h : Refused r asked key error) : asked.Failed key error := by
  rcases h with hclosed | ⟨request, outcome, earlier, hlog, -, hkey, herror⟩
  · exact .inl hclosed
  · exact .inr ⟨request, outcome, earlier, hlog, hkey, herror⟩

inductive Requested (world : World) (target : MappingTarget) (r : Reconciler) :
    Reconciler → Prop
  | granted {asked : Reconciler} {proto : NatProtocol} {nonce : Nonce} {ack : MapAck}
      {epoch : UInt32} {response : MapResponse} {earlier : List LogEntry}
      (hacts : Acts world r asked) (hasked : Asked r asked) (hsocket : asked.rpcSocket = true)
      (hnonce : asked.nonces.lookup target.key = some nonce) (hsuffix : r.log <:+ earlier)
      (hlog : asked.log = .call (mapRequest proto target nonce) (.ok response) :: earlier)
      (hack : response.ack nonce = .ok (ack, epoch)) (hgranted : response.error? = none) :
      Requested world target r (asked.established world proto target nonce ack epoch)
  | failed {asked : Reconciler} {error : RpcError} (hacts : Acts world r asked)
      (hasked : Asked r asked) (hrefused : Refused r asked target.key error) :
      Requested world target r (asked.failed target.key error)

theorem tryProtocols_cons (target : MappingTarget) (nonce : Nonce) (proto : NatProtocol)
    (rest : List NatProtocol) (last : Option RpcError) (r : Reconciler) :
    (∃ ack epoch asked, r.tryMapVia world proto target nonce = (.ok (ack, epoch), asked) ∧
      tryProtocols world target nonce (proto :: rest) last r =
        asked.established world proto target nonce ack epoch) ∨
    ∃ error asked, r.tryMapVia world proto target nonce = (.error error, asked) ∧
      (tryProtocols world target nonce (proto :: rest) last r =
          tryProtocols world target nonce rest (some error) asked ∨
        tryProtocols world target nonce (proto :: rest) last r =
          asked.failed target.key error) := by
  rw [tryProtocols]
  split
  · rename_i ack epoch asked hresult
    exact .inl ⟨ack, epoch, asked, hresult, rfl⟩
  · rename_i error asked hresult
    refine .inr ⟨error, asked, hresult, ?_⟩
    split
    · exact .inl rfl
    · exact .inr rfl

-- Induction on the protocols still to be tried; `r` is the mapper before the first of them.
theorem requested_tryProtocols {protos : List NatProtocol} {last : Option RpcError}
    {asked : Reconciler} (hacts : Acts world r asked) (hasked : Asked r asked)
    (hnonce : asked.nonces.lookup target.key = some nonce) (hsome : protos = [] → last ≠ none)
    (hlast : ∀ error, last = some error → Refused r asked target.key error) :
    Requested world target r (tryProtocols world target nonce protos last asked) := by
  induction protos generalizing last asked with
  | nil =>
      cases last with
      | none => exact absurd rfl (hsome rfl)
      | some error => exact .failed hacts hasked (hlast error rfl)
  | cons proto rest ih =>
      have htried := tried_tryMapVia world asked proto target nonce
      have hasked' := hasked.tried htried
      have hcalled : asked.rpcSocket = true →
          Acts world r (asked.tryMapVia world proto target nonce).2 :=
        fun hsocket => hacts.tail (.call hsocket hnonce proto)
      rcases tryProtocols_cons target nonce proto rest last asked with
        ⟨ack, epoch, answered, hresult, hnext⟩ | ⟨error, answered, hresult, hnext⟩
      · rw [hresult] at htried hcalled hasked'
        rw [hnext]
        cases htried with
        | answered hsocket _ hack hgranted =>
            exact .granted (hcalled hsocket) hasked' hsocket hnonce hasked.log_suffix rfl hack
              hgranted
      · rw [hresult] at htried hcalled hasked'
        obtain ⟨hacts', hnonce', hrefused⟩ : Acts world r answered ∧
            answered.nonces.lookup target.key = some nonce ∧
            Refused r answered target.key error := by
          cases htried with
          | closed hsocket => exact ⟨hacts, hnonce, .inl ⟨rfl, hsocket⟩⟩
          | refused hsocket _ herror =>
              exact ⟨hcalled hsocket, hnonce,
                .inr ⟨_, _, asked.log, rfl, hasked.log_suffix, key_mapRequest .., herror⟩⟩
        rcases hnext with hnext | hnext
        · rw [hnext]
          refine ih hacts' hasked' hnonce' (fun _ h => by cases h) ?_
          exact fun cause hcause => Option.some.inj hcause ▸ hrefused
        · rw [hnext]
          exact .failed hacts' hasked' hrefused

theorem protocolsToTry_ne_nil (r : Reconciler) : r.protocolsToTry ≠ [] := by
  unfold protocolsToTry
  cases hmode : r.params.mode with
  | off => exact absurd hmode r.params.enabled
  | pcp => simp
  | natPmp => simp
  | auto =>
      dsimp only
      split
      · simp
      · simp

variable (world)

theorem requested_sendMapRequest (r : Reconciler) (target : MappingTarget) :
    Requested world target r (r.sendMapRequest world target) := by
  obtain ⟨hacts, hstored⟩ := nonceFor_spec world r target.key
  refine requested_tryProtocols hacts (asked_nonceFor world r target.key) hstored ?_ ?_
  · exact fun hnil => absurd hnil (protocolsToTry_ne_nil r)
  · exact fun error herror => by cases herror

theorem acts_sendMapRequestInline (r : Reconciler) (target : MappingTarget) :
    Acts world r (r.sendMapRequestInline world target) := by
  obtain ⟨hacts, hstored⟩ := nonceFor_spec world r target.key
  unfold sendMapRequestInline
  set stored := r.nonceFor world target.key
  set proto := stored.2.currentProtocol.getD .pcp
  have htried := tried_tryMapVia world stored.2 proto target stored.1
  have hcalled : stored.2.rpcSocket = true →
      Acts world r (stored.2.tryMapVia world proto target stored.1).2 :=
    fun hsocket => hacts.tail (.call hsocket hstored proto)
  dsimp only
  split
  · rename_i ack epoch asked hresult
    rw [hresult] at htried hcalled
    cases htried with
    | @answered response _ drawn hsocket hdrawn hack =>
        exact (hcalled hsocket).tail (.record hsocket (fun _ => .inl hstored)
          ⟨response, epoch, List.mem_cons_self, hack⟩)
  · rename_i error asked hresult
    rw [hresult] at htried hcalled
    cases htried with
    | closed => exact hacts
    | refused hsocket => exact hcalled hsocket

theorem acts_noteEpoch {epoch : UInt32} (hregressed : r.epochRegressed epoch = true) :
    Acts world { r with mappings := ∅, nonces := ∅ } (r.noteEpoch world epoch) := by
  rw [noteEpoch, if_pos hregressed]
  exact (Acts.foldl (acts_sendMapRequestInline world) _ _).from_tuned ⟨rfl, rfl, rfl, rfl, rfl⟩
    (Nat.le_succ _)

theorem acts_established {ack : MapAck} (hsocket : r.rpcSocket = true)
    (hnonce : r.nonces.lookup target.key = some nonce)
    (hgranted : Granted r.log proto target nonce ack) (epoch : UInt32) :
    Acts world r (r.established world proto target nonce ack epoch) := by
  have recorded : ∀ {noted : Reconciler}, Acts world r noted →
      (proto = .pcp →
        noted.nonces.lookup target.key = some nonce ∨ .epochReset .pcp ∈ noted.log) →
      Acts world r
        (record world { noted with currentProtocol := some proto } proto target nonce ack) := by
    intro noted hnoted hstored
    have htuned : Acts world r { noted with currentProtocol := some proto } :=
      hnoted.then_tune ⟨rfl, rfl, rfl, rfl, rfl⟩ le_rfl
    exact htuned.tail
      (.record (htuned.socket hsocket) hstored (hgranted.mono htuned.log_suffix))
  unfold established
  by_cases hregressed : r.epochRegressed epoch = true
  · have hnoted := acts_noteEpoch world
      (r := { r with log := .epochReset proto :: r.log }) hregressed
    have hreset := (Relation.ReflTransGen.single (Act.reset r proto)).trans hnoted
    rw [if_pos hregressed]
    refine (recorded hreset ?_).then_tune ⟨rfl, rfl, rfl, rfl, rfl⟩ le_rfl
    intro hpcp
    exact .inr (hpcp ▸ hnoted.log_suffix.subset List.mem_cons_self)
  · rw [if_neg hregressed, noteEpoch, if_neg hregressed]
    refine (recorded (Acts.tune ⟨rfl, rfl, rfl, rfl, rfl⟩ le_rfl) ?_).then_tune
      ⟨rfl, rfl, rfl, rfl, rfl⟩ le_rfl
    exact fun _ => .inl hnonce

theorem acts_sendMapRequest (r : Reconciler) (target : MappingTarget) :
    Acts world r (r.sendMapRequest world target) := by
  have hrequested := requested_sendMapRequest world r target
  generalize r.sendMapRequest world target = sent at hrequested ⊢
  cases hrequested with
  | @granted asked proto nonce ack epoch response earlier hacts _ hsocket hnonce _ hlog hack =>
      refine hacts.trans (acts_established world hsocket hnonce ⟨response, epoch, ?_, hack⟩ epoch)
      rw [hlog]
      exact List.mem_cons_self
  | failed hacts _ hrefused => exact hacts.tail (.failed hrefused.failed)

/-! ## Passes -/

theorem acts_ensureRpcSocket (r : Reconciler) : Acts world r (r.ensureRpcSocket world).2 := by
  unfold ensureRpcSocket
  split
  · exact .refl
  · split
    · exact .tune ⟨rfl, rfl, rfl, rfl, rfl⟩ (Nat.le_succ _)
    · exact .single (.openSocket r)

theorem acts_dropOne (r : Reconciler) (key : MappingKey) : Acts world r (r.dropOne world key) :=
  .single (.drop r key)

theorem acts_reconcileTargets (rules : RuleSet) (r : Reconciler) :
    Acts world r (reconcileTargets world rules r) := by
  have hsocket := acts_ensureRpcSocket world r
  unfold reconcileTargets
  split
  · rename_i message opened hopened
    rw [hopened] at hsocket
    exact hsocket.then_tune ⟨rfl, rfl, rfl, rfl, rfl⟩ le_rfl
  · rename_i opened hopened
    rw [hopened] at hsocket
    refine Relation.ReflTransGen.trans ?_ (Acts.foldl (acts_sendMapRequest world) _ _).after_draw
    exact hsocket.trans (Acts.foldl (acts_dropOne world) _ _).after_draw

theorem acts_renewOne (r : Reconciler) (key : MappingKey) :
    Acts world r (r.renewOne world key) := by
  unfold renewOne
  split
  · exact .refl
  · exact acts_sendMapRequest world r _

theorem acts_refreshDueMappings (r : Reconciler) : Acts world r (r.refreshDueMappings world) :=
  (Acts.foldl (acts_renewOne world) _ _).after_draw

theorem acts_awaitEvent (r : Reconciler) : Acts world r (r.awaitEvent world) :=
  .tune ⟨rfl, rfl, rfl, rfl, rfl⟩ (Nat.le_succ _)

theorem acts_start (params : NatMapperParams) (rules : RuleSet) :
    Acts world (new params) (start world params rules) := by
  have hsocket := acts_ensureRpcSocket world (new params)
  unfold start
  dsimp only
  refine Relation.ReflTransGen.trans ?_
    ((acts_reconcileTargets world rules _).trans (acts_awaitEvent world _))
  split
  · rename_i message opened hopened
    rw [hopened] at hsocket
    exact hsocket.then_tune ⟨rfl, rfl, rfl, rfl, rfl⟩ le_rfl
  · rename_i opened hopened
    rw [hopened] at hsocket
    exact hsocket

theorem log_suffix_rebuildTable (r : Reconciler) : r.log <:+ (r.rebuildTable world).log := by
  have hacts := Acts.foldl (acts_sendMapRequest world) (r.targets world) r.clearTable
  exact ((List.suffix_cons _ _).trans hacts.log_suffix).trans (List.suffix_cons _ _)

theorem running_rebuildTable (r : Reconciler) : (r.rebuildTable world).running = r.running :=
  (Acts.foldl (acts_sendMapRequest world) (r.targets world) r.clearTable).running

theorem log_suffix_sendUnmaps (r : Reconciler) (mappings : List ActiveMapping) :
    r.log <:+ (r.sendUnmaps world mappings).log := by
  induction mappings generalizing r with
  | nil => exact List.suffix_refl _
  | cons mapping rest ih =>
      refine List.IsSuffix.trans ?_ (ih (r.sendUnmap world mapping (shutdownNonce mapping)))
      exact List.suffix_cons _ _

theorem log_suffix_releaseAllWithDeadline (r : Reconciler) :
    r.log <:+ (r.releaseAllWithDeadline world).log := by
  unfold releaseAllWithDeadline
  split
  · exact List.suffix_refl _
  · exact log_suffix_sendUnmaps world r _

variable {world}

theorem running_of_step {next : Reconciler} {event : Event}
    (hstep : step world r event = some next) : r.running = true := by
  unfold step at hstep
  split at hstep
  · cases hstep
  · rename_i hrunning
    simpa using hrunning

/--
What is kept by every act and by a probe's rebuilding of the table is kept by
every step but the last, in which the mapper releases its table and exits.
-/
theorem step_cases {P : Reconciler → Prop} (hact : ∀ {r r'}, Act world r r' → P r → P r')
    (hrebuild : ∀ {r}, P r → P (r.rebuildTable world)) {next : Reconciler} {event : Event} (h : P r)
    (hstep : step world r event = some next) :
    (P next ∧ ∃ passed : Reconciler, next = passed.awaitEvent world) ∨
      next = { r.releaseAllWithDeadline world with running := false } := by
  have hacts : ∀ {r r' : Reconciler}, Acts world r r' → P r → P r' :=
    fun hpass hr => hpass.invariant hact hr
  have htune : ∀ {r r' : Reconciler}, P r → SameTable r r' → r.drawn ≤ r'.drawn → P r' :=
    fun hr h hdrawn => hact (.tune h hdrawn) hr
  have hwoken : P { r with drawn := r.drawn + 1 } :=
    htune h ⟨rfl, rfl, rfl, rfl, rfl⟩ (Nat.le_succ _)
  have hawait : ∀ {passed : Reconciler}, P passed →
      P (passed.awaitEvent world) ∧ ∃ other : Reconciler,
        passed.awaitEvent world = other.awaitEvent world :=
    fun hr => ⟨hacts (acts_awaitEvent world _) hr, _, rfl⟩
  unfold step at hstep
  split at hstep
  · cases hstep
  · cases event with
    | shutdown => exact .inr (Option.some.inj hstep).symm
    | watchClosed => exact .inr (Option.some.inj hstep).symm
    | rulesChanged rules =>
        cases hstep
        exact .inl (hawait (hacts (acts_reconcileTargets world rules r) h))
    | tick rules =>
        dsimp only at hstep
        split at hstep
        · cases hstep
        · split at hstep
          · cases hstep
            exact .inl (hawait (hacts (acts_reconcileTargets world rules _) hwoken))
          · cases hstep
            exact .inl (hawait (hacts (acts_refreshDueMappings world _) hwoken))
          · cases hstep
            have hprobed := hacts (acts_reconcileTargets world rules _) (hrebuild hwoken)
            refine .inl (hawait ?_)
            unfold backoffProbe
            dsimp only
            split
            · exact htune hprobed ⟨rfl, rfl, rfl, rfl, rfl⟩ le_rfl
            · exact htune hprobed ⟨rfl, rfl, rfl, rfl, rfl⟩ le_rfl
          · cases hstep

end Reconciler

end Yggdrasil.NatTraversal
