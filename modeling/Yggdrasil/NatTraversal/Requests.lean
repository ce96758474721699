import Yggdrasil.NatTraversal.Releases

/-!
# One request to the gateway

A request for a target is granted, over the protocol its mapping is recorded
with, or every protocol that was tried has failed.  Two things in the answer
decide more than the one mapping: the epoch, from which the mapper concludes
that the gateway has lost its state, and the error of a PCP call, from which it
concludes that the gateway speaks NAT-PMP.
-/

namespace Yggdrasil.NatTraversal

open Foundation Ratatoskr

namespace Reconciler

def Logged (property : LogEntry → Bool) (r r' : Reconciler) : Prop :=
  ∃ recent, r'.log = recent ++ r.log ∧ ∀ entry ∈ recent, property entry = true

section

variable {property : LogEntry → Bool} {r middle r' : Reconciler}

theorem Logged.split (h : Logged property r r') (hfirst : r.log <:+ middle.log)
    (hsecond : middle.log <:+ r'.log) : Logged property r middle ∧ Logged property middle r' := by
  obtain ⟨recent, hrecent, hall⟩ := h
  obtain ⟨first, hfirst⟩ := hfirst
  obtain ⟨second, hsecond⟩ := hsecond
  have hparts : recent ++ r.log = (second ++ first) ++ r.log := by
    rw [← hrecent, ← hsecond, ← hfirst, List.append_assoc]
  obtain rfl := List.append_cancel_right hparts
  exact ⟨⟨first, hfirst.symm, fun entry h => hall entry (List.mem_append_right _ h)⟩,
    ⟨second, hsecond.symm, fun entry h => hall entry (List.mem_append_left _ h)⟩⟩

theorem Logged.of_entry {entry : LogEntry} {later earlier : List LogEntry}
    (h : Logged property r r') (hlog : r'.log = later ++ entry :: earlier)
    (hsuffix : r.log <:+ earlier) : property entry = true := by
  obtain ⟨recent, hrecent, hall⟩ := h
  obtain ⟨between, hbetween⟩ := hsuffix
  have hparts : recent ++ r.log = (later ++ entry :: between) ++ r.log := by
    rw [← hrecent, hlog, ← hbetween, List.append_assoc, List.cons_append]
  obtain rfl := List.append_cancel_right hparts
  exact hall entry (List.mem_append_right _ List.mem_cons_self)

end

variable {r asked : Reconciler} {world : World}

variable (world) in
theorem lookup_established_self (asked : Reconciler) (proto : NatProtocol)
    (target : MappingTarget) (nonce : Nonce) (ack : MapAck) (epoch : UInt32) :
    ∃ mapping,
      (asked.established world proto target nonce ack epoch).mappings.lookup target.key =
        some mapping ∧ mapping.target = target ∧ mapping.protocolUsed = proto := by
  refine ⟨_, AList.lookup_insert _, rfl, rfl⟩

theorem lookup_established_ne {epoch : UInt32} (hsteady : asked.epochRegressed epoch = false)
    (proto : NatProtocol) (target : MappingTarget) (nonce : Nonce) (ack : MapAck) {key : MappingKey}
    (hne : key ≠ target.key) :
    (asked.established world proto target nonce ack epoch).mappings.lookup key =
      asked.mappings.lookup key := by
  have hnot : ¬ asked.epochRegressed epoch = true := by simp [hsteady]
  unfold established
  rw [if_neg hnot, noteEpoch, if_neg hnot]
  exact AList.lookup_insert_ne hne

variable (world) in
theorem log_established_of_regressed {epoch : UInt32}
    (hregressed : asked.epochRegressed epoch = true) (proto : NatProtocol) (target : MappingTarget)
    (nonce : Nonce) (ack : MapAck) :
    ∃ later, (asked.established world proto target nonce ack epoch).log =
      .confirmed target.key :: later ++ .epochReset proto :: asked.log := by
  obtain ⟨later, hlater⟩ := (acts_noteEpoch world
    (r := { asked with log := .epochReset proto :: asked.log }) hregressed).log_suffix
  refine ⟨later, ?_⟩
  unfold established
  rw [if_pos hregressed, List.cons_append, hlater]
  rfl

variable (world) in
theorem log_established (asked : Reconciler) (proto : NatProtocol) (target : MappingTarget)
    (nonce : Nonce) (ack : MapAck) (epoch : UInt32) :
    ∃ later, (asked.established world proto target nonce ack epoch).log =
      .confirmed target.key :: later ++ asked.log := by
  by_cases hregressed : asked.epochRegressed epoch = true
  · obtain ⟨later, hlater⟩ :=
      log_established_of_regressed world hregressed proto target nonce ack
    exact ⟨later ++ [.epochReset proto], by simpa using hlater⟩
  · refine ⟨[], ?_⟩
    unfold established
    rw [if_neg hregressed, noteEpoch, if_neg hregressed]
    rfl

theorem failed_eq (r : Reconciler) (key : MappingKey) (error : RpcError) :
    r.failed key error =
      { r with
        lastError := some (.rpc error)
        consecutiveErrors := min (r.consecutiveErrors + 1) (2 ^ 32 - 1)
        mappings := if error.isTransient then r.mappings else r.mappings.erase key
        state :=
          if errorThresholdToBackoff ≤ min (r.consecutiveErrors + 1) (2 ^ 32 - 1) then .backoff
          else r.state } := by
  unfold failed transitionBackoff
  dsimp only
  split
  · rfl
  · rfl

theorem Refused.of_logged {property : LogEntry → Bool} {key : MappingKey} {error : RpcError}
    (h : Refused r asked key error) (hlogged : Logged property r (asked.failed key error)) :
    (error = .noSocket ∧ asked.rpcSocket = false) ∨ ∃ request outcome,
      property (.call request outcome) = true ∧ callError outcome = some error := by
  rcases h with hclosed | ⟨request, outcome, earlier, hlog, hsuffix, -, herror⟩
  · exact .inl hclosed
  · have hentry : (asked.failed key error).log = [] ++ .call request outcome :: earlier :=
      (log_failed asked key error).trans hlog
    exact .inr ⟨request, outcome, hlogged.of_entry hentry hsuffix, herror⟩

variable (world) in
theorem sendMapRequestInline_spec (r : Reconciler) (target : MappingTarget) :
    (r.sendMapRequestInline world target).lastEpoch = r.lastEpoch ∧
      r.drawn ≤ (r.sendMapRequestInline world target).drawn := by
  unfold sendMapRequestInline
  set stored := r.nonceFor world target.key with hstored
  set proto := stored.2.currentProtocol.getD .pcp
  have hasked := (asked_nonceFor world r target.key).tried
    (tried_tryMapVia world stored.2 proto target stored.1)
  dsimp only
  split
  · rename_i ack epoch asked hresult
    rw [hresult] at hasked
    obtain ⟨nonces, drawn, calls, hle, rfl⟩ := hasked
    exact ⟨rfl, hle.trans (Nat.le_succ drawn)⟩
  · rename_i error asked hresult
    rw [hresult] at hasked
    obtain ⟨nonces, drawn, calls, hle, rfl⟩ := hasked
    exact ⟨rfl, hle⟩

/-- The test's sum where arithmetic is checked; `none` is a panic. -/
def checkedLimit (newEpoch : UInt32) : Option UInt32 :=
  if newEpoch.toNat + 16 < 2 ^ 32 then some (newEpoch + 16) else none

/-- The arm of `note_epoch` that drops the table and requests all of it again. -/
def restartTable (world : World) (r : Reconciler) (newEpoch : UInt32) : Reconciler :=
  (r.targets world).foldl (sendMapRequestInline world)
    { r with
      mappings := ∅, nonces := ∅, lastEpoch := some newEpoch, drawn := r.drawn + 1 }

/-- The source's `note_epoch` in a build with overflow checks; in `noteEpoch` the sum wraps. -/
def noteEpochChecked (world : World) (r : Reconciler) (newEpoch : UInt32) : Option Reconciler :=
  match r.lastEpoch with
  | none => some { r with lastEpoch := some newEpoch }
  | some prev =>
      (checkedLimit newEpoch).map fun limit =>
        if limit < prev then r.restartTable world newEpoch
        else { r with lastEpoch := some newEpoch }

variable (world) in
theorem restartTable_spec (r : Reconciler) (newEpoch : UInt32) :
    (r.restartTable world newEpoch).lastEpoch = some newEpoch ∧
      r.drawn < (r.restartTable world newEpoch).drawn := by
  have hfold : ∀ (targets : List MappingTarget) (r : Reconciler),
      (targets.foldl (sendMapRequestInline world) r).lastEpoch = r.lastEpoch ∧
        r.drawn ≤ (targets.foldl (sendMapRequestInline world) r).drawn := by
    intro targets
    induction targets with
    | nil => exact fun r => ⟨rfl, le_rfl⟩
    | cons target rest ih =>
        intro r
        obtain ⟨hepoch, hdrawn⟩ := sendMapRequestInline_spec world r target
        obtain ⟨hrest, hlater⟩ := ih (r.sendMapRequestInline world target)
        exact ⟨hrest.trans hepoch, hdrawn.trans hlater⟩
  obtain ⟨hepoch, hdrawn⟩ := hfold (r.targets world)
    { r with mappings := ∅, nonces := ∅, lastEpoch := some newEpoch, drawn := r.drawn + 1 }
  exact ⟨hepoch, hdrawn⟩

/-- The test over the natural numbers. -/
def noteEpochExact (world : World) (r : Reconciler) (prev newEpoch : UInt32) : Reconciler :=
  if newEpoch.toNat + 16 < prev.toNat then r.restartTable world newEpoch
  else { r with lastEpoch := some newEpoch }

theorem toNat_limit_of_lt {newEpoch : UInt32} (h : newEpoch.toNat + 16 < 2 ^ 32) :
    (newEpoch + 16).toNat = newEpoch.toNat + 16 := by
  rw [UInt32.toNat_add]
  exact Nat.mod_eq_of_lt h

theorem toNat_limit_of_le {newEpoch : UInt32} (h : 2 ^ 32 ≤ newEpoch.toNat + 16) :
    (newEpoch + 16).toNat + 2 ^ 32 = newEpoch.toNat + 16 := by
  have hlt := newEpoch.toNat_lt
  have hsixteen : (16 : UInt32).toNat = 16 := rfl
  rw [UInt32.toNat_add, hsixteen]
  omega

variable (world) in
theorem noteEpoch_of_lastEpoch {prev : UInt32} (h : r.lastEpoch = some prev) (newEpoch : UInt32) :
    r.noteEpoch world newEpoch =
      if newEpoch + 16 < prev then r.restartTable world newEpoch
      else { r with lastEpoch := some newEpoch } := by
  simp only [noteEpoch, epochRegressed, h, decide_eq_true_eq]
  rfl

theorem restartTable_ne (r : Reconciler) (newEpoch : UInt32) :
    r.restartTable world newEpoch ≠ { r with lastEpoch := some newEpoch } := by
  intro heq
  have hdrawn := (restartTable_spec world r newEpoch).2
  rw [heq] at hdrawn
  exact lt_irrefl _ hdrawn

theorem epoch_test_exact_iff (world : World) (r : Reconciler) (prev newEpoch : UInt32) :
    let known := { r with lastEpoch := some prev }
    (noteEpochChecked world known newEpoch = some (known.noteEpochExact world prev newEpoch) ∧
        noteEpoch world known newEpoch = known.noteEpochExact world prev newEpoch ↔
      newEpoch.toNat + 16 < 2 ^ 32) ∧
    (noteEpoch world known newEpoch = known.noteEpochExact world prev newEpoch ↔
      newEpoch.toNat + 16 < 2 ^ 32 ∨ prev.toNat + 2 ^ 32 ≤ newEpoch.toNat + 16) ∧
    (noteEpoch world known newEpoch).lastEpoch = some newEpoch := by
  intro known
  have hnoted := noteEpoch_of_lastEpoch world (r := known) rfl newEpoch
  have hlast : (noteEpoch world known newEpoch).lastEpoch = some newEpoch := by
    rw [hnoted]
    split
    · exact (restartTable_spec world known newEpoch).1
    · rfl
  by_cases hfits : newEpoch.toNat + 16 < 2 ^ 32
  · have htest : newEpoch + 16 < prev ↔ newEpoch.toNat + 16 < prev.toNat := by
      rw [UInt32.lt_iff_toNat_lt, toNat_limit_of_lt hfits]
    have hchecked : noteEpochChecked world known newEpoch =
        some (known.noteEpochExact world prev newEpoch) := by
      simp only [noteEpochChecked, noteEpochExact, checkedLimit, if_pos hfits, Option.map_some,
        htest, known]
    have hexact : noteEpoch world known newEpoch = known.noteEpochExact world prev newEpoch := by
      rw [hnoted, noteEpochExact]
      simp only [htest]
    exact ⟨iff_of_true ⟨hchecked, hexact⟩ hfits, iff_of_true hexact (.inl hfits), hlast⟩
  · have hwrapped := toNat_limit_of_le (Nat.le_of_not_lt hfits)
    have hprev := prev.toNat_lt
    have hkept : known.noteEpochExact world prev newEpoch =
        { known with lastEpoch := some newEpoch } := by
      rw [noteEpochExact, if_neg (by omega)]
    have hpanics : noteEpochChecked world known newEpoch = none := by
      simp only [noteEpochChecked, checkedLimit, if_neg hfits, Option.map_none, known]
    have hrelease : noteEpoch world known newEpoch = known.noteEpochExact world prev newEpoch ↔
        prev.toNat + 2 ^ 32 ≤ newEpoch.toNat + 16 := by
      rw [hnoted, hkept]
      by_cases htest : newEpoch + 16 < prev
      · rw [if_pos htest]
        rw [UInt32.lt_iff_toNat_lt] at htest
        exact iff_of_false (restartTable_ne known newEpoch) (by omega)
      · rw [if_neg htest]
        rw [UInt32.lt_iff_toNat_lt] at htest
        exact iff_of_true rfl (by omega)
    refine ⟨iff_of_false ?_ hfits, ?_, hlast⟩
    · rintro ⟨hchecked, -⟩
      cases hpanics.symm.trans hchecked
    · rw [hrelease, or_iff_right hfits]

/--
A response with the largest epoch: a checked build stops, the release build
takes it for a restart of the gateway and loses the mapping it held.
-/
theorem largest_epoch_drops_table :
    ∃ begun mapping,
      start silentWorld pcpParams sshRules = begun ∧
      begun.lastEpoch = some 1000 ∧
      begun.mappings.lookup (.tcp, 22) = some mapping ∧
      ¬ (0xffffffff : UInt32).toNat + 16 < (1000 : UInt32).toNat ∧
      noteEpochChecked silentWorld begun 0xffffffff = none ∧
      (noteEpoch silentWorld begun 0xffffffff).mappings.lookup (.tcp, 22) = none :=
  ⟨_, _, rfl, rfl, rfl, by decide, rfl, rfl⟩

end Reconciler

/-! ## Falling back to NAT-PMP -/

/-- RFC 6886: version zero and result code one, in at least eight bytes. -/
structure UnsupportedVersion (bytes : Bytes) : Prop where
  long : 8 ≤ bytes.length
  version : byteAt bytes 0 = NatPmp.version
  resultCode : u16At bytes 2 = NatPmpResultCode.unsupportedVersion.asU16

/-- A gateway without PCP, by what it replies to each request. -/
structure NatPmpOnly (reply : MapRequest → Bytes) : Prop where
  pcp : ∀ request, UnsupportedVersion (reply (.pcp request))
  natPmp : ∀ request : NatPmpMapRequest, ∃ response trailing,
    reply (.natPmp request) = NatPmp.synthesize response ++ trailing ∧
      response.resultCode = .success ∧ response.protocol = request.protocol ∧
      response.internalPort = request.internalPort

theorem decodeMapResponse_of_version {buf : Bytes} (h : byteAt buf 0 ≠ Pcp.version) :
    ∃ error, Pcp.decodeMapResponse buf = .error error := by
  unfold Pcp.decodeMapResponse
  by_cases hshort : buf.length < Pcp.mapResponseLen
  · exact ⟨_, by rw [if_pos hshort]; rfl⟩
  · exact ⟨_, by rw [if_neg hshort, if_pos h]; rfl⟩

theorem byteAt_take {buf : Bytes} {start count : Nat} (h : start < count) :
    byteAt (buf.take count) start = byteAt buf start := by
  rw [byteAt, byteAt, List.getD_eq_getElem?_getD, List.getD_eq_getElem?_getD,
    List.getElem?_take_of_lt h]

section

variable {attempt : Nat → Attempt} {drawn : Nat} {bytes : Bytes}

theorem rpcLoop_of_packet {ρ : Type} {accept : Bytes → Except WireError (Option ρ)}
    (h : attempt drawn = ⟨.ok (), .packet bytes⟩) (retries : Nat) {outcome : Except WireError ρ}
    (haccept : accept (bytes.take recvBufferLen) = outcome.map some) :
    rpcLoop attempt accept (retries + 1) drawn = (outcome.mapError .wire, drawn + 1) := by
  rw [rpcLoop, h]
  dsimp only
  rw [haccept]
  cases outcome with
  | error error => rfl
  | ok response => rfl

theorem call_pcp_of_unsupportedVersion (h : attempt drawn = ⟨.ok (), .packet bytes⟩)
    (hbytes : UnsupportedVersion bytes) (request : PcpMapRequest) :
    ∃ error, MapRequest.call attempt drawn (.pcp request) = (.error (.wire error), drawn + 1) := by
  have hversion : byteAt (bytes.take recvBufferLen) 0 ≠ Pcp.version := by
    rw [byteAt_take (by decide), hbytes.version]
    decide
  obtain ⟨error, herror⟩ := decodeMapResponse_of_version hversion
  have haccept : acceptPcp request (bytes.take recvBufferLen) =
      (Except.error error : Except WireError PcpMapResponse).map some := by
    rw [acceptPcp, herror]
    rfl
  refine ⟨error, ?_⟩
  rw [MapRequest.call, pcpRpc, show rpcMaxRetries = 2 + 1 from rfl, rpcLoop_of_packet h 2 haccept]
  rfl

theorem call_natPmp_of_synthesize {response : NatPmpMapResponse} {trailing : Bytes}
    (h : attempt drawn = ⟨.ok (), .packet (NatPmp.synthesize response ++ trailing)⟩)
    (request : NatPmpMapRequest) :
    MapRequest.call attempt drawn (.natPmp request) = (.ok (.natPmp response), drawn + 1) := by
  have hlength : (NatPmp.synthesize response).length = 16 := by
    simp [NatPmp.synthesize]
  have htake : (NatPmp.synthesize response ++ trailing).take recvBufferLen =
      NatPmp.synthesize response ++ trailing.take (recvBufferLen - 16) := by
    rw [List.take_append, hlength, List.take_of_length_le (by rw [hlength]; decide)]
  have haccept : (NatPmp.decodeMapResponse
        ((NatPmp.synthesize response ++ trailing).take recvBufferLen)).map some =
      (Except.ok response : Except WireError NatPmpMapResponse).map some := by
    rw [htake, NatPmp.decodeMapResponse_synthesize]
  rw [MapRequest.call, natpmpRpc, show rpcMaxRetries = 2 + 1 from rfl,
    rpcLoop_of_packet h 2 haccept]
  rfl

end

namespace Reconciler

def Served (world : World) (reply : MapRequest → Bytes) (r : Reconciler)
    (target : MappingTarget) : Prop :=
  ∀ proto draw, (proto, draw) ∈ r.protocolsToTry.zipIdx (r.nonceFor world target.key).2.drawn →
    world.attempt draw =
      ⟨.ok (), .packet (reply (mapRequest proto target (r.nonceFor world target.key).1))⟩

def MappedOverNatPmp (r : Reconciler) (target : MappingTarget) : Prop :=
  ∃ mapping, r.mappings.lookup target.key = some mapping ∧ mapping.target = target ∧
    mapping.protocolUsed = .natPmp

theorem rpcSocket_nonceFor (world : World) (r : Reconciler) (key : MappingKey) :
    (r.nonceFor world key).2.rpcSocket = r.rpcSocket := by
  obtain ⟨nonces, drawn, calls, -, hasked⟩ := asked_nonceFor world r key
  rw [hasked]

theorem lookup_failed_wire (r : Reconciler) (key : MappingKey) (error : WireError) :
    (r.failed key (.wire error)).mappings.lookup key = none := by
  unfold failed
  dsimp only
  split
  · exact AList.lookup_erase _ _
  · exact AList.lookup_erase _ _

section

variable {world : World} {reply : MapRequest → Bytes} {r : Reconciler} {target : MappingTarget}
  {nonce : Nonce}

theorem tryMapVia_natPmp_answered (hgateway : NatPmpOnly reply) (hsocket : r.rpcSocket = true)
    (hanswered : world.attempt r.drawn =
      ⟨.ok (), .packet (reply (mapRequest .natPmp target nonce))⟩) :
    ∃ answer, (r.tryMapVia world .natPmp target nonce).1 = .ok answer := by
  obtain ⟨response, trailing, hreply, hcode, -, -⟩ := hgateway.natPmp
    ⟨target.protocol, target.internalPort, target.internalPort, requestedLifetimeSecs⟩
  rw [mapRequest, hreply] at hanswered
  have hack : (MapResponse.natPmp response).ack nonce =
      .ok (⟨response.assignedExternalPort, none, response.assignedLifetime⟩,
        response.secondsSinceEpoch) := by
    rw [MapResponse.ack, if_neg (not_not.2 hcode)]
  refine ⟨(⟨response.assignedExternalPort, none, response.assignedLifetime⟩,
    response.secondsSinceEpoch), ?_⟩
  rw [tryMapVia, if_pos hsocket]
  dsimp only
  rw [mapRequest, call_natPmp_of_synthesize hanswered]
  exact hack

theorem tryMapVia_pcp_answered (hgateway : NatPmpOnly reply) (hsocket : r.rpcSocket = true)
    (hanswered : world.attempt r.drawn =
      ⟨.ok (), .packet (reply (mapRequest .pcp target nonce))⟩) :
    ∃ error, (r.tryMapVia world .pcp target nonce).1 = .error (.wire error) := by
  rw [mapRequest] at hanswered
  obtain ⟨error, hcall⟩ := call_pcp_of_unsupportedVersion hanswered (hgateway.pcp _)
    ⟨requestedLifetimeSecs, target.internalAddr, nonce, target.protocol, target.internalPort,
      target.internalPort, 0⟩
  refine ⟨error, ?_⟩
  rw [tryMapVia, if_pos hsocket]
  dsimp only
  rw [mapRequest, hcall]
  rfl

end

theorem natpmp_gateway_reached_iff (world : World) (reply : MapRequest → Bytes)
    (hgateway : NatPmpOnly reply) (r : Reconciler) (hauto : r.params.mode = .auto)
    (hsocket : r.rpcSocket = true) (target : MappingTarget)
    (hserved : r.Served world reply target) :
    (r.sendMapRequest world target).MappedOverNatPmp target ↔
      r.currentProtocol = some .natPmp := by
  have hopen : (r.nonceFor world target.key).2.rpcSocket = true :=
    (rpcSocket_nonceFor world r target.key).trans hsocket
  unfold sendMapRequest
  dsimp only
  by_cases hcurrent : r.currentProtocol = some .natPmp
  · have hprotos : r.protocolsToTry = [.natPmp] := by
      simp only [protocolsToTry, hauto, if_pos hcurrent]
    have hanswered := hserved .natPmp _ (by rw [hprotos]; exact List.mem_cons_self)
    obtain ⟨⟨ack, epoch⟩, hanswer⟩ := tryMapVia_natPmp_answered hgateway hopen hanswered
    rw [hprotos, tryProtocols, ← Prod.mk.eta (p := tryMapVia world _ .natPmp target _), hanswer]
    exact iff_of_true (lookup_established_self world _ .natPmp target _ ack epoch) hcurrent
  · have hprotos : r.protocolsToTry = [.pcp, .natPmp] := by
      simp only [protocolsToTry, hauto, if_neg hcurrent]
    have hanswered := hserved .pcp _ (by rw [hprotos]; exact List.mem_cons_self)
    obtain ⟨error, herror⟩ := tryMapVia_pcp_answered hgateway hopen hanswered
    refine iff_of_false ?_ hcurrent
    rw [hprotos, tryProtocols, ← Prod.mk.eta (p := tryMapVia world _ .pcp target _), herror]
    dsimp only
    -- the error is of the wire, so the second protocol is not tried
    rw [if_neg (fun hfalls => by cases hfalls.2.2)]
    rintro ⟨mapping, hheld, -⟩
    rw [lookup_failed_wire] at hheld
    cases hheld

def natPmpReply : MapRequest → Bytes
  | .pcp _ => [0, 0x81, 0, 1, 0, 0, 0, 0]
  | .natPmp request =>
      NatPmp.synthesize ⟨.success, request.protocol, 0, request.internalPort,
        request.suggestedExternalPort, request.lifetimeSecs⟩

theorem natPmpOnly_natPmpReply : NatPmpOnly natPmpReply where
  pcp _ := ⟨le_rfl, rfl, rfl⟩
  natPmp _ := ⟨_, [], (List.append_nil _).symm, rfl, rfl, rfl⟩

def autoParams : NatMapperParams := { pcpParams with mode := .auto, enabled := by decide }

def sshTarget : MappingTarget := ⟨.tcp, 22, 0xC0A8010A, .rule "ssh"⟩

def natPmpWorld (first : NatProtocol) : World :=
  plainWorld (answering [(1, natPmpReply (mapRequest first sshTarget 0)),
    (2, natPmpReply (mapRequest .natPmp sshTarget 0))])

def freshMapper (current : NatProtocol) : Reconciler :=
  { new autoParams with rpcSocket := true, currentProtocol := some current }

theorem natpmp_gateway_reached_once_known :
    (freshMapper .natPmp).Served (natPmpWorld .natPmp) natPmpReply sshTarget ∧
      ((freshMapper .natPmp).sendMapRequest (natPmpWorld .natPmp) sshTarget).MappedOverNatPmp
        sshTarget := by
  have hserved : (freshMapper .natPmp).Served (natPmpWorld .natPmp) natPmpReply sshTarget := by
    intro proto draw hmem
    cases List.mem_singleton.1 hmem
    rfl
  exact ⟨hserved, (natpmp_gateway_reached_iff (natPmpWorld .natPmp) natPmpReply
    natPmpOnly_natPmpReply (freshMapper .natPmp) rfl rfl sshTarget hserved).2 rfl⟩

/-- The mapper as it starts: the reply to its first request is not taken for what it is. -/
theorem natpmp_gateway_not_reached :
    NatPmpOnly natPmpReply ∧
      (freshMapper .pcp).params.mode = .auto ∧
      (freshMapper .pcp).rpcSocket = true ∧
      (freshMapper .pcp).Served (natPmpWorld .pcp) natPmpReply sshTarget ∧
      ((freshMapper .pcp).sendMapRequest (natPmpWorld .pcp) sshTarget).mappings.lookup
        sshTarget.key = none ∧
      ((freshMapper .pcp).sendMapRequest (natPmpWorld .pcp) sshTarget).lastError =
        some (.rpc (.wire (.truncated 60 8))) := by
  refine ⟨natPmpOnly_natPmpReply, rfl, rfl, ?_, rfl, rfl⟩
  intro proto draw hmem
  rcases List.mem_cons.1 hmem with hfirst | hsecond
  · cases hfirst
    rfl
  · cases List.mem_singleton.1 hsecond
    rfl

end Reconciler

end Yggdrasil.NatTraversal
