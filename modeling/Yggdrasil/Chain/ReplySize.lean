import Yggdrasil.Control.ChainDiff

/-!
# The size of a reply

A reply over its cap is cut down to the node's own record, and what is left is
not measured again.  A canary record is small, since node names are; a hop
record carries the node's whole rule set, which may exceed the cap by itself.
-/

namespace Yggdrasil.Chain

open Foundation Foundation.Postcard Ratatoskr
open Yggdrasil.Control (Mode ChainIdentity DerivedRulesResponse)

def serverNameMaxBytes : Nat := 32

/-- An empty name passes; the node then takes its hostname. -/
def validateServerName (name : String) : Except String Unit :=
  let len := Text.utf8Len name.toList
  if name.toList = [] then .ok ()
  else if serverNameMaxBytes < len then
    .error s!"[server].name must be <= {serverNameMaxBytes} bytes (got {len} bytes)"
  else if name.toList.any Text.isControl then
    .error "[server].name must not contain control characters"
  else if name.toList.any Text.isWhitespace then
    .error "[server].name must not contain whitespace"
  else .ok ()

def takeBytes (limit : Nat) : Text → Text
  | [] => []
  | c :: rest => if c.utf8Size ≤ limit then c :: takeBytes (limit - c.utf8Size) rest else []

/-- The kernel's hostname up to its NUL, or nothing where `gethostname` fails. -/
def readHostnameOrUnknown (kernel : Option Bytes) : String :=
  match kernel with
  | none => "unknown"
  | some bytes =>
      let name := (String.fromUTF8? ⟨bytes.toArray⟩).getD "unknown"
      let sanitised := name.toList.filter (fun c => !Text.isControl c && !Text.isWhitespace c)
      if sanitised = [] then "unknown"
      else if serverNameMaxBytes < Text.utf8Len sanitised then
        String.ofList (takeBytes serverNameMaxBytes sanitised)
      else String.ofList sanitised

def resolveServerName (configured : Option String) (kernel : Option Bytes) : String :=
  match configured with
  | some name => if name.toList = [] then readHostnameOrUnknown kernel else name
  | none => readHostnameOrUnknown kernel

theorem utf8Len_takeBytes_le (limit : Nat) (text : Text) :
    Text.utf8Len (takeBytes limit text) ≤ limit := by
  induction text generalizing limit with
  | nil => exact Nat.zero_le limit
  | cons c rest ih =>
      rw [takeBytes]
      split
      · have hrest := ih (limit - c.utf8Size)
        rw [Text.utf8Len] at hrest ⊢
        rw [List.map_cons, List.sum_cons]
        omega
      · exact Nat.zero_le limit

theorem length_strBytes (text : String) : (strBytes text).length = Text.utf8Len text.toList := by
  rw [strBytes_eq, List.length_flatMap, Text.utf8Len]
  simp only [String.length_utf8EncodeChar]

theorem length_readHostnameOrUnknown_le (kernel : Option Bytes) :
    (strBytes (readHostnameOrUnknown kernel)).length ≤ serverNameMaxBytes := by
  have hunknown : (strBytes "unknown").length ≤ serverNameMaxBytes := by decide
  cases kernel with
  | none => exact hunknown
  | some bytes =>
      simp only [readHostnameOrUnknown]
      split
      · exact hunknown
      · split
        · rw [length_strBytes, String.toList_ofList]
          exact utf8Len_takeBytes_le _ _
        · rename_i hshort
          rw [length_strBytes, String.toList_ofList]
          exact Nat.le_of_not_lt hshort

theorem length_resolveServerName_le {configured : Option String}
    (hvalid : ∀ name, configured = some name → validateServerName name = .ok ())
    (kernel : Option Bytes) :
    (strBytes (resolveServerName configured kernel)).length ≤ serverNameMaxBytes := by
  cases configured with
  | none => exact length_readHostnameOrUnknown_le kernel
  | some name =>
      have hname := hvalid name rfl
      rw [resolveServerName]
      split
      · exact length_readHostnameOrUnknown_le kernel
      · rename_i hne
        simp only [validateServerName, if_neg hne] at hname
        split at hname
        · cases hname
        · rename_i hshort
          rw [length_strBytes]
          exact Nat.le_of_not_lt hshort

def encodeMode : Mode → Bytes
  | .gateway => encodeU32 0
  | .relay => encodeU32 1
  | .terminal => encodeU32 2

def encodeReply {H : Type} (encodeHop : H → Bytes) (reply : WalkReply H) : Bytes :=
  encodeU32 reply.queryId ++ encodeSeq encodeHop reply.hops ++ encodeBool reply.isPartial ++
    encodeOption encodeStr reply.error

def encodeCanaryHop (hop : CanaryHop) : Bytes :=
  encodeU32 hop.hopIndex ++ encodePubKey hop.pubkey ++ encodeOption encodeStr hop.name ++
    encodeMode hop.mode ++ encodeBool hop.rulePresent ++ encodeBool hop.echoArmed ++
    encodeOption encodeU64 hop.queryRttMs

def encodeSocketAddr (addr : SocketAddr) : Bytes :=
  match addr.ip with
  | .v4 bits => encodeU32 0 ++ beBytes 4 bits.toNat ++ encodeU16 addr.port
  | .v6 bits => encodeU32 1 ++ beBytes 16 bits.toNat ++ encodeU16 addr.port

def encodeProxyProto : ProxyProto → Bytes
  | .v1 => encodeU32 0
  | .v2 => encodeU32 1

/-- Durations travel as text; how it reads is left open. -/
def encodeRule (formatDuration : Nat → String) (rule : Rule) : Bytes :=
  encodeStr rule.name ++ encodeSocketAddr rule.listen ++ encodeProtocol rule.protocol ++
    encodeOption encodeU16 rule.targetPort ++ encodeOption encodeStr rule.target ++
    encodeOption (fun idle => encodeStr (formatDuration idle)) rule.idleTimeout ++
    encodeOption encodeProxyProto rule.proxyProtocol

/-- A signed word, zigzagged. -/
def encodeI64 (word : Int) : Bytes :=
  encodeVarint 10 (if 0 ≤ word then 2 * word.toNat else 2 * (-word).toNat - 1)

def encodeChainIdentity (chain : ChainIdentity) : Bytes :=
  encodePubKey chain.localKey ++ encodeOption encodePubKey chain.upstream ++
    encodeOption encodePubKey chain.downstream ++
    encodeOption encodePubKey chain.predicateOrigin ++ encodeOption encodeI64 chain.lastApplyUnix

def encodeView (formatDuration : Nat → String) (view : DerivedRulesResponse) : Bytes :=
  encodeSeq encodePredicate view.predicates ++
    encodeSeq (encodeRule formatDuration) view.derivedRules ++ encodeChainIdentity view.chain

def encodeChainHop (formatDuration : Nat → String) (hop : ChainHop DerivedRulesResponse) : Bytes :=
  encodeU32 hop.hopIndex ++ encodeMode hop.mode ++ encodeU64 hop.uptimeSecs ++
    encodeOption encodeStr hop.name ++ encodeView formatDuration hop.view ++
    encodeOption encodeU64 hop.queryRttMs

/-! ## What is left of a reply over the cap -/

namespace Walk

variable {H : Type} [HopRecord H] (walk : Walk H)

def localOnly (queryId : UInt32) (localHop : H) : WalkReply H :=
  ⟨queryId, [localHop], true,
    some s!"reply exceeded {walk.maxWireBytes} bytes; truncated to local hop"⟩

theorem queryId_assemble (upstream : Option (Upstream H))
    (queryId depthBudget deadlineMs : UInt32) (localHop : H) :
    (walk.assemble upstream queryId depthBudget deadlineMs localHop).queryId = queryId := by
  unfold assemble
  split
  · rfl
  · dsimp only
    split
    · split <;> rfl
    · split <;> rfl

theorem truncate_assemble (upstream : Option (Upstream H))
    (queryId depthBudget deadlineMs : UInt32) (localHop : H) :
    walk.truncate (walk.assemble upstream queryId depthBudget deadlineMs localHop) =
      walk.localOnly queryId localHop := by
  have hhops := walk.hops_truncate_assemble upstream queryId depthBudget deadlineMs localHop
  rw [truncate] at hhops ⊢
  dsimp only at hhops
  rw [hhops, queryId_assemble, localOnly]

theorem fits_handle_iff {localHop : H} {upstream : Option (Upstream H)}
    {queryId depthBudget deadlineMs : UInt32} {sent : WalkReply H}
    (h : walk.handle (some localHop) upstream queryId depthBudget deadlineMs = some sent) :
    walk.Fits sent ↔
      walk.Fits (walk.assemble upstream queryId depthBudget deadlineMs localHop) ∨
        walk.Fits (walk.localOnly queryId localHop) := by
  rw [← truncate_assemble]
  rcases walk.finish_cases h with ⟨hfits, rfl⟩ | ⟨hlong, rfl⟩
  · exact iff_of_true hfits (.inl hfits)
  · exact (or_iff_right hlong).symm

omit [HopRecord H] in
theorem fits_iff_of_encode {encode : WalkReply H → Bytes}
    (hencode : ∀ reply, walk.encode reply = .ok (encode reply)) (reply : WalkReply H) :
    walk.Fits reply ↔ (encode reply).length ≤ walk.maxWireBytes := by
  constructor
  · rintro ⟨bytes, hbytes, hfits⟩
    rw [hencode, Except.ok.injEq] at hbytes
    rwa [hbytes]
  · exact fun hfits => ⟨_, hencode reply, hfits⟩

end Walk

theorem length_encodeStr_le (text : String) :
    (encodeStr text).length ≤ 10 + (strBytes text).length := by
  have hlen : (encodeLen (strBytes text).length).length ≤ 10 := length_encodeVarint_le _ _
  rw [encodeStr, encodeVec, List.length_append]
  omega

theorem length_encodeOption_le {α : Type} {encode : α → Bytes} {bound : Nat} {value : Option α}
    (h : ∀ item, value = some item → (encode item).length ≤ bound) :
    (encodeOption encode value).length ≤ 1 + bound := by
  cases value with
  | none => exact Nat.le_add_right 1 bound
  | some item =>
      have hitem := h item rfl
      rw [encodeOption, List.length_cons]
      omega

theorem length_encodeMode_le (mode : Mode) : (encodeMode mode).length ≤ 5 := by
  cases mode <;> exact length_encodeVarint_le _ _

theorem length_encodeReply_le {H : Type} (encodeHop : H → Bytes) (hopBound : Nat) (hops : List H)
    (hhops : ∀ hop ∈ hops, (encodeHop hop).length ≤ hopBound) (hcount : hops.length ≤ 1)
    (queryId : UInt32) (text : String) :
    (encodeReply encodeHop ⟨queryId, hops, true, some text⟩).length ≤
      27 + hopBound + (strBytes text).length := by
  have hid : (encodeU32 queryId).length ≤ 5 := length_encodeVarint_le _ _
  have hlen : (encodeLen hops.length).length ≤ 10 := length_encodeVarint_le _ _
  have hseq : (hops.flatMap encodeHop).length ≤ hopBound := by
    match hops, hcount with
    | [], _ => exact Nat.zero_le _
    | [hop], _ =>
        rw [List.flatMap_singleton]
        exact hhops hop List.mem_cons_self
  have herror : (encodeOption encodeStr (some text)).length ≤ 11 + (strBytes text).length := by
    have htext := length_encodeStr_le text
    rw [encodeOption, List.length_cons]
    omega
  simp only [encodeReply, encodeSeq, encodeBool, List.length_append, List.length_singleton]
  omega

theorem length_encodeCanaryHop_le {hop : CanaryHop}
    (hname : ∀ name, hop.name = some name → (strBytes name).length ≤ serverNameMaxBytes) :
    (encodeCanaryHop hop).length ≤ 99 := by
  have hindex : (encodeU32 hop.hopIndex).length ≤ 5 := length_encodeVarint_le _ _
  have hkey := length_encodePubKey hop.pubkey
  have hmode := length_encodeMode_le hop.mode
  have hname' : (encodeOption encodeStr hop.name).length ≤ 1 + (10 + serverNameMaxBytes) :=
    length_encodeOption_le fun name heq =>
      (length_encodeStr_le name).trans (Nat.add_le_add_left (hname name heq) 10)
  have hrtt : (encodeOption encodeU64 hop.queryRttMs).length ≤ 1 + 10 :=
    length_encodeOption_le fun word _ => length_encodeVarint_le _ _
  rw [serverNameMaxBytes] at hname'
  simp only [encodeCanaryHop, encodeBool, List.length_append, List.length_singleton]
  omega

/-- `postcard::to_allocvec` does not fail on these types. -/
def encodeHopReply (formatDuration : Nat → String)
    (reply : ChainHopReply DerivedRulesResponse) : Except String Bytes :=
  .ok (encodeReply (encodeChainHop formatDuration) reply)

def encodeCanaryReply (reply : CanaryReply) : Except String Bytes :=
  .ok (encodeReply encodeCanaryHop reply)

theorem length_unavailable_le {H : Type} (encodeHop : H → Bytes) (queryId : UInt32) :
    (encodeReply encodeHop ⟨queryId, [], true, some "local introspection unavailable"⟩).length ≤
      canaryReplyMaxWireBytes := by
  refine (length_encodeReply_le encodeHop 0 [] ?_ (Nat.zero_le 1) queryId _).trans (by decide)
  exact fun hop hhop => by cases hhop

theorem length_handleCanaryArm_le {View : Type} {responder : Responder View}
    (hname : ∀ name, responder.nodeName = some name → (strBytes name).length ≤ serverNameMaxBytes)
    {upstream : Option (CanaryArm → Except QueryError (UInt64 × CanaryReply))} {arm : CanaryArm}
    {clock : Clock} {reply : CanaryReply}
    (h : (responder.handleCanaryArm encodeCanaryReply upstream arm clock).2 = some reply) :
    (encodeReply encodeCanaryHop reply).length ≤ canaryReplyMaxWireBytes := by
  let walk := canaryWalk encodeCanaryReply
  have hfits : ∀ reply, walk.Fits reply ↔
      (encodeReply encodeCanaryHop reply).length ≤ canaryReplyMaxWireBytes :=
    walk.fits_iff_of_encode (fun _ => rfl)
  simp only [Responder.handleCanaryArm] at h
  cases hlocal : responder.canaryHop arm clock with
  | none =>
      rw [hlocal] at h
      rw [walk.eq_of_send h]
      exact length_unavailable_le encodeCanaryHop arm.queryId
  | some hop =>
      rw [hlocal] at h
      rw [← hfits, walk.fits_handle_iff h, hfits, hfits]
      right
      have hnames : ∀ name, hop.name = some name →
          (strBytes name).length ≤ serverNameMaxBytes := by
        obtain ⟨introspection, -, rfl⟩ := Option.map_eq_some_iff.1 hlocal
        exact hname
      refine (length_encodeReply_le encodeCanaryHop 99 [hop] ?_ (Nat.le_refl 1) arm.queryId
        _).trans (by decide)
      intro other hother
      obtain rfl := List.mem_singleton.1 hother
      exact length_encodeCanaryHop_le hnames

/-- The bytes of a node's own record: the view, the name, the uptime, and one byte each for the
number, the mode and the missing round trip. -/
def ownBytes (formatDuration : Nat → String) (responder : Responder DerivedRulesResponse)
    (view : DerivedRulesResponse) : Nat :=
  (encodeView formatDuration view).length + (encodeOption encodeStr responder.nodeName).length +
    (encodeU64 responder.uptimeSecs).length + 3

/-- The bytes around the first record: the count, the other records, the flag and the error. -/
def restBytes (formatDuration : Nat → String) (hops : List (ChainHop DerivedRulesResponse))
    (error : Option String) : Nat :=
  (encodeLen (hops.length + 1)).length +
    (hops.map fun hop => (encodeChainHop formatDuration hop).length).sum + 1 +
    (encodeOption encodeStr error).length

/-- What the upstream's reply, or the note that there is none, adds to the node's own record. -/
def upstreamBytes (formatDuration : Nat → String)
    (upstream : Option (Upstream (ChainHop DerivedRulesResponse))) (query : ChainHopQuery) : Nat :=
  match upstream with
  | none => restBytes formatDuration [] none
  | some ask =>
      if query.depthBudget.toNat ≤ 1 then
        restBytes formatDuration [] (some "depth budget exhausted")
      else if query.deadlineMs.toNat ≤ forwardingOverheadMs.toNat then
        restBytes formatDuration [] (some "deadline exhausted before upstream forward")
      else
        match ask (saturatingSub query.depthBudget 1)
            (saturatingSub query.deadlineMs forwardingOverheadMs) with
        | .ok (rttMs, reply) => restBytes formatDuration (renumbered rttMs 1 0 reply.hops) reply.error
        | .error e =>
            restBytes formatDuration [] (some ((hopWalk (encodeHopReply formatDuration)).describe e))

section

variable {formatDuration : Nat → String} {responder : Responder DerivedRulesResponse}
  {upstream : Option (Upstream (ChainHop DerivedRulesResponse))} {query : ChainHopQuery}
  {reply : ChainHopReply DerivedRulesResponse}

theorem length_chainHop (formatDuration : Nat → String) {hop : ChainHop DerivedRulesResponse}
    (h : responder.chainHop = some hop) :
    ∃ introspection, responder.introspection = some introspection ∧
      (encodeChainHop formatDuration hop).length =
        ownBytes formatDuration responder introspection.snapshot := by
  obtain ⟨introspection, hintrospection, rfl⟩ := Option.map_eq_some_iff.1 h
  refine ⟨introspection, hintrospection, ?_⟩
  have hindex : (encodeU32 0).length = 1 := by decide
  have hmode : ∀ mode, (encodeMode mode).length = 1 := by
    intro mode
    cases mode <;> decide
  have hrtt : (encodeOption encodeU64 none).length = 1 := rfl
  simp only [encodeChainHop, List.length_append, hindex, hmode, hrtt, ownBytes]
  omega

theorem length_encodeReply_cons (queryId : UInt32) (hop : ChainHop DerivedRulesResponse)
    (hops : List (ChainHop DerivedRulesResponse)) (isPartial : Bool) (error : Option String) :
    (encodeReply (encodeChainHop formatDuration) ⟨queryId, hop :: hops, isPartial, error⟩).length =
      (encodeU32 queryId).length + (encodeChainHop formatDuration hop).length +
        restBytes formatDuration hops error := by
  have hhops : (hops.flatMap (encodeChainHop formatDuration)).length =
      (hops.map fun hop => (encodeChainHop formatDuration hop).length).sum := List.length_flatMap
  simp only [encodeReply, encodeSeq, encodeBool, List.flatMap_cons, List.length_append, hhops,
    List.length_cons, List.length_nil, restBytes]
  omega

theorem length_assemble (hop : ChainHop DerivedRulesResponse) :
    (encodeReply (encodeChainHop formatDuration) ((hopWalk (encodeHopReply formatDuration)).assemble
      upstream query.queryId query.depthBudget query.deadlineMs hop)).length =
      (encodeU32 query.queryId).length + (encodeChainHop formatDuration hop).length +
        upstreamBytes formatDuration upstream query := by
  cases upstream with
  | none => exact length_encodeReply_cons ..
  | some ask =>
      have hzero : saturatingSub query.depthBudget 1 = 0 ↔ query.depthBudget.toNat ≤ 1 := by
        rw [← UInt32.toNat_inj, toNat_saturatingSub]
        exact Nat.sub_eq_zero_iff_le
      by_cases hdepth : query.depthBudget.toNat ≤ 1
      · have hquiet : ¬(0 < saturatingSub query.depthBudget 1 ∧
            0 < saturatingSub query.deadlineMs forwardingOverheadMs) :=
          fun h => Nat.not_lt.2 hdepth (asks_iff.1 h).1
        simp only [Walk.assemble, if_neg hquiet, if_pos (hzero.2 hdepth), upstreamBytes,
          if_pos hdepth]
        exact length_encodeReply_cons ..
      · by_cases hdeadline : query.deadlineMs.toNat ≤ forwardingOverheadMs.toNat
        · have hquiet : ¬(0 < saturatingSub query.depthBudget 1 ∧
              0 < saturatingSub query.deadlineMs forwardingOverheadMs) :=
            fun h => Nat.not_lt.2 hdeadline (asks_iff.1 h).2
          simp only [Walk.assemble, if_neg hquiet, if_neg (mt hzero.1 hdepth), upstreamBytes,
            if_neg hdepth, if_pos hdeadline]
          exact length_encodeReply_cons ..
        · have hasks := asks_iff.2 ⟨Nat.lt_of_not_le hdepth, Nat.lt_of_not_le hdeadline⟩
          simp only [Walk.assemble, if_pos hasks, upstreamBytes, if_neg hdepth, if_neg hdeadline]
          cases ask (saturatingSub query.depthBudget 1)
              (saturatingSub query.deadlineMs forwardingOverheadMs) with
          | ok answer =>
              dsimp only
              rw [appendUpstream_eq]
              exact length_encodeReply_cons ..
          | error e => exact length_encodeReply_cons ..

theorem length_handleChainHopQuery_iff
    (h : responder.handleChainHopQuery (encodeHopReply formatDuration) upstream query =
      some reply) :
    (encodeReply (encodeChainHop formatDuration) reply).length ≤ chainHopReplyMaxWireBytes ↔
      ∀ introspection, responder.introspection = some introspection →
        (encodeU32 query.queryId).length +
          ownBytes formatDuration responder introspection.snapshot +
          min 54 (upstreamBytes formatDuration upstream query) ≤ chainHopReplyMaxWireBytes := by
  let walk := hopWalk (encodeHopReply formatDuration)
  have hfits : ∀ reply, walk.Fits reply ↔
      (encodeReply (encodeChainHop formatDuration) reply).length ≤ chainHopReplyMaxWireBytes :=
    walk.fits_iff_of_encode (fun _ => rfl)
  simp only [Responder.handleChainHopQuery] at h
  cases hlocal : responder.chainHop with
  | none =>
      rw [hlocal] at h
      rw [walk.eq_of_send h]
      refine iff_of_true ((length_unavailable_le (encodeChainHop formatDuration)
        query.queryId).trans (by decide)) ?_
      intro introspection hintrospection
      rw [Responder.chainHop, hintrospection] at hlocal
      cases hlocal
  | some hop =>
      rw [hlocal] at h
      obtain ⟨introspection, hintrospection, hown⟩ := length_chainHop formatDuration hlocal
      have hnote : restBytes formatDuration []
          (some s!"reply exceeded {walk.maxWireBytes} bytes; truncated to local hop") = 54 := by
        have hbytes : (encodeOption encodeStr (some
            s!"reply exceeded {chainHopReplyMaxWireBytes} bytes; truncated to local hop")).length =
              52 := by decide
        exact congrArg (2 + ·) hbytes
      rw [← hfits, walk.fits_handle_iff h, hfits, hfits, length_assemble, Walk.localOnly,
        length_encodeReply_cons, hnote, hown]
      constructor
      · rintro hwithin other hother
        cases hintrospection.symm.trans hother
        omega
      · intro hall
        have hwithin := hall introspection hintrospection
        omega

end

variable {reply : ChainHopReply DerivedRulesResponse}

/--
A hop reply is within its cap exactly when the node's own record leaves room for
what the upstream adds or for the note that it was cut off; a canary reply always
is, node names being short.
-/
theorem reply_within_cap_iff (formatDuration : Nat → String)
    (responder : Responder DerivedRulesResponse) :
    (∀ upstream query reply,
      responder.handleChainHopQuery (encodeHopReply formatDuration) upstream query = some reply →
      ((encodeReply (encodeChainHop formatDuration) reply).length ≤ chainHopReplyMaxWireBytes ↔
        ∀ introspection, responder.introspection = some introspection →
          (encodeU32 query.queryId).length +
            ownBytes formatDuration responder introspection.snapshot +
            min 54 (upstreamBytes formatDuration upstream query) ≤ chainHopReplyMaxWireBytes)) ∧
    (∀ configured kernel,
      (∀ name, configured = some name → validateServerName name = .ok ()) →
      (∀ name, responder.nodeName = some name → name = resolveServerName configured kernel) →
      ∀ upstream arm clock reply,
        (responder.handleCanaryArm encodeCanaryReply upstream arm clock).2 = some reply →
        (encodeReply encodeCanaryHop reply).length ≤ canaryReplyMaxWireBytes) := by
  refine ⟨fun upstream query reply h => length_handleChainHopQuery_iff h, ?_⟩
  intro configured kernel hvalid hresolved upstream arm clock reply h
  refine length_handleCanaryArm_le (fun name hname => ?_) h
  rw [hresolved name hname]
  exact length_resolveServerName_le hvalid kernel

/-! ## A node with many rules -/

def plainRule (index : Nat) : Rule :=
  ⟨s!"rule-{index}", ⟨.v4 0, UInt16.ofNat (1024 + index)⟩, .tcp, some 80, none, none, none⟩

def rulesView (count : Nat) : DerivedRulesResponse :=
  ⟨[], (List.range count).map plainRule, ⟨.x25519 .zero, none, none, none, none⟩⟩

def rulesNode (count : Nat) : Responder DerivedRulesResponse :=
  ⟨some ⟨rulesView count, .x25519 .zero⟩, some .gateway, 0, some "gateway", .empty, none⟩

theorem le_length_encodeRule (formatDuration : Nat → String) (index : Nat) :
    12 ≤ (encodeRule formatDuration (plainRule index)).length := by
  have hname : 0 < (encodeLen (strBytes (plainRule index).name).length).length :=
    List.length_pos_of_ne_nil (encodeVarint_ne_nil 9 _)
  have hport : 0 < (encodeU16 (plainRule index).listen.port).length :=
    List.length_pos_of_ne_nil (encodeVarint_ne_nil 2 _)
  have htag : (encodeU32 0).length = 1 := by decide
  have htarget : (encodeOption encodeU16 (some 80)).length = 2 := by decide
  simp only [encodeRule, encodeStr, encodeVec, List.length_append, plainRule, encodeSocketAddr,
    length_beBytes, encodeProtocol, encodeOption, List.length_cons, List.length_nil, htag] at *
  omega

theorem le_length_rulesView (formatDuration : Nat → String) (count : Nat) :
    12 * count ≤ (encodeView formatDuration (rulesView count)).length := by
  have hrules : 12 * count ≤
      (((List.range count).map plainRule).flatMap (encodeRule formatDuration)).length := by
    induction count with
    | zero => exact Nat.zero_le _
    | succ count ih =>
        have hrule := le_length_encodeRule formatDuration count
        rw [List.range_succ, List.map_append, List.flatMap_append, List.length_append,
          List.map_singleton, List.flatMap_singleton]
        omega
  simp only [encodeView, rulesView, encodeSeq, List.length_append]
  omega

theorem length_encodeView_le {formatDuration : Nat → String} {hop : ChainHop DerivedRulesResponse}
    (hhop : hop ∈ reply.hops) :
    (encodeView formatDuration hop.view).length ≤
      (encodeReply (encodeChainHop formatDuration) reply).length := by
  have hown : (encodeView formatDuration hop.view).length ≤
      (encodeChainHop formatDuration hop).length := by
    simp only [encodeChainHop, List.length_append]
    omega
  have hlist : (encodeChainHop formatDuration hop).length ≤
      (reply.hops.flatMap (encodeChainHop formatDuration)).length := by
    obtain ⟨before, after, hsplit⟩ := List.append_of_mem hhop
    rw [hsplit, List.flatMap_append, List.flatMap_cons, List.length_append, List.length_append]
    omega
  simp only [encodeReply, encodeSeq, List.length_append]
  omega

theorem many_rules_exceed_cap :
    ∃ reply, (rulesNode 1500).handleChainHopQuery (encodeHopReply toString) none ⟨7, 16, 5000⟩ =
        some reply ∧
      chainHopReplyMaxWireBytes < (encodeReply (encodeChainHop toString) reply).length := by
  let hop : ChainHop DerivedRulesResponse := ⟨0, .gateway, 0, some "gateway", rulesView 1500, none⟩
  have hlarge : ∀ reply : ChainHopReply DerivedRulesResponse, hop ∈ reply.hops →
      chainHopReplyMaxWireBytes < (encodeReply (encodeChainHop toString) reply).length := by
    intro reply hhop
    have hview := le_length_rulesView toString 1500
    have hreply : (encodeView toString (rulesView 1500)).length ≤ _ := length_encodeView_le hhop
    rw [chainHopReplyMaxWireBytes]
    omega
  let walk := hopWalk (encodeHopReply toString)
  refine ⟨walk.truncate ⟨7, [hop], false, none⟩, ?_, hlarge _ List.mem_cons_self⟩
  change walk.finish ⟨7, [hop], false, none⟩ = _
  rw [Walk.finish]
  exact if_pos (hlarge ⟨7, [hop], false, none⟩ List.mem_cons_self)

def oneRuleUpstream : Upstream (ChainHop DerivedRulesResponse) := fun _ _ =>
  .ok (3, ⟨9, [⟨0, .relay, 60, some "relay", rulesView 1, none⟩], false, none⟩)

theorem few_rules_within_cap :
    ∃ reply, (rulesNode 2).handleChainHopQuery (encodeHopReply toString) (some oneRuleUpstream)
        ⟨7, 16, 5000⟩ = some reply ∧
      (encodeReply (encodeChainHop toString) reply).length ≤ chainHopReplyMaxWireBytes := by
  obtain ⟨reply, hreply⟩ : ∃ reply, (rulesNode 2).handleChainHopQuery (encodeHopReply toString)
      (some oneRuleUpstream) ⟨7, 16, 5000⟩ = some reply :=
    Option.isSome_iff_exists.1 (by decide +kernel)
  have hcap := (reply_within_cap_iff toString (rulesNode 2)).1 (some oneRuleUpstream)
    ⟨7, 16, 5000⟩ reply hreply
  refine ⟨reply, hreply, hcap.2 ?_⟩
  intro introspection hintrospection
  cases hintrospection
  decide

end Yggdrasil.Chain
