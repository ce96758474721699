import Yggdrasil.Ratatoskr.Predicate

/-!
# Derivation of rules from predicates

A relay turns a received predicate set into rules that forward toward the node
the set came from.  One loop validates each predicate, claims its rule names and
its listen ports, and stops at the first clash; an HTTPS predicate claims TCP
and UDP on its port whether or not HTTP/3 is enabled.  The rules collected by a
loop that ends are always accepted as a rule set.
-/

namespace Yggdrasil.Chain

open Foundation Ratatoskr

structure DeriveConfig where
  bindAddr : IpAddr
  proxyProtocol : Option ProxyProto
  deriving DecidableEq, Repr

inductive DeriveError where
  | invalidName (name : String)
  | zeroListenPort (name : String)
  | duplicateName (name : String)
  | duplicateRuleName (ruleName first second : String)
  | duplicateListenPort (first second protocol : String) (port : UInt16)
  | httpsListenCollision (httpsName otherName protocol : String) (port : UInt16)
  deriving DecidableEq, Repr

structure ListenClaim where
  protocol : Protocol
  port : UInt16
  predicateName : String
  derivedFromHttps : Bool
  deriving DecidableEq, Repr

namespace ListenClaim

def l4 (p : Predicate) : ListenClaim := ⟨p.protocol, p.listenPort, p.name, false⟩

def https (p : Predicate) (derivedProtocol : Protocol) : ListenClaim :=
  ⟨derivedProtocol, p.listenPort, p.name, true⟩

def socket (claim : ListenClaim) : Protocol × UInt16 := (claim.protocol, claim.port)

end ListenClaim

abbrev RuleNameClaims := List (String × String)

structure DeriveState where
  seenNames : List String
  seenRuleNames : RuleNameClaims
  seenListens : List ListenClaim
  rules : List Rule
  deriving DecidableEq, Repr

def validatePredicate (p : Predicate) : Except DeriveError Unit := do
  require (p.name ≠ "" ∧ !hasBlank p.name) (.invalidName p.name)
  require (p.listenPort ≠ 0) (.zeroListenPort p.name)

def insertRuleNameClaim (seen : RuleNameClaims) (ruleName predicateName : String) :
    Except DeriveError RuleNameClaims :=
  match seen.find? (fun claim => claim.1 = ruleName) with
  | some (_, first) => .error (.duplicateRuleName ruleName first predicateName)
  | none => .ok (seen ++ [(ruleName, predicateName)])

def listenCollisionError (existing incoming : ListenClaim) : DeriveError :=
  if existing.derivedFromHttps && !incoming.derivedFromHttps then
    .httpsListenCollision existing.predicateName incoming.predicateName incoming.protocol.asStr
      existing.port
  else if incoming.derivedFromHttps && !existing.derivedFromHttps then
    .httpsListenCollision incoming.predicateName existing.predicateName existing.protocol.asStr
      incoming.port
  else
    .duplicateListenPort existing.predicateName incoming.predicateName incoming.protocol.asStr
      incoming.port

def insertListenClaim (seen : List ListenClaim) (claim : ListenClaim) :
    Except DeriveError (List ListenClaim) :=
  match seen.find? (fun existing =>
      existing.protocol = claim.protocol ∧ existing.port = claim.port) with
  | some existing => .error (listenCollisionError existing claim)
  | none =>
      match seen.find? (fun existing =>
          existing.port = claim.port ∧ existing.derivedFromHttps ≠ claim.derivedFromHttps) with
      | some existing => .error (listenCollisionError existing claim)
      | none => .ok (seen ++ [claim])

def durationFromMillis (ms : UInt64) : Nat := ms.toNat * 1000000

def ruleFromPredicateL4 (p : Predicate) (cfg : DeriveConfig) : Rule where
  name := p.name
  listen := ⟨cfg.bindAddr, p.listenPort⟩
  protocol := p.protocol
  targetPort := some p.listenPort
  target := none
  idleTimeout :=
    match p.protocol with
    | .udp => p.idleTimeoutMs.map durationFromMillis
    | _ => none
  proxyProtocol :=
    match p.protocol with
    | .tcp => cfg.proxyProtocol
    | _ => none

def derivedHttpsRuleName (p : Predicate) (derivedProtocol : Protocol) : String :=
  p.name ++ ("-" ++ derivedProtocol.asStr)

def ruleFromHttpsPredicate (p : Predicate) (cfg : DeriveConfig) (derivedProtocol : Protocol) :
    Rule where
  name := derivedHttpsRuleName p derivedProtocol
  listen := ⟨cfg.bindAddr, p.listenPort⟩
  protocol := derivedProtocol
  targetPort := some p.listenPort
  target := none
  idleTimeout :=
    match derivedProtocol with
    | .udp => some (30 * 1000000000)
    | _ => none
  proxyProtocol := some .v2

def deriveL4 (cfg : DeriveConfig) (state : DeriveState) (p : Predicate) :
    Except DeriveError DeriveState := do
  let ruleNames ← insertRuleNameClaim state.seenRuleNames p.name p.name
  let listens ← insertListenClaim state.seenListens (.l4 p)
  .ok ⟨state.seenNames ++ [p.name], ruleNames, listens,
    state.rules ++ [ruleFromPredicateL4 p cfg]⟩

/-- The UDP leg is claimed only with HTTP/3. -/
def claimHttpsRuleNames (seen : RuleNameClaims) (p : Predicate) :
    Except DeriveError RuleNameClaims := do
  let seen ← insertRuleNameClaim seen (derivedHttpsRuleName p .tcp) p.name
  if p.httpsHttp3 then insertRuleNameClaim seen (derivedHttpsRuleName p .udp) p.name
  else .ok seen

def deriveHttps (cfg : DeriveConfig) (state : DeriveState) (p : Predicate) :
    Except DeriveError DeriveState := do
  let ruleNames ← claimHttpsRuleNames state.seenRuleNames p
  let listens ← insertListenClaim state.seenListens (.https p .tcp)
  let listens ← insertListenClaim listens (.https p .udp)
  .ok ⟨state.seenNames ++ [p.name], ruleNames, listens,
    state.rules ++ (ruleFromHttpsPredicate p cfg .tcp ::
      if p.httpsHttp3 then [ruleFromHttpsPredicate p cfg .udp] else [])⟩

def deriveStep (cfg : DeriveConfig) (state : DeriveState) (p : Predicate) :
    Except DeriveError DeriveState := do
  validatePredicate p
  require (p.name ∉ state.seenNames) (.duplicateName p.name)
  match p.protocol with
  | .tcp | .udp => deriveL4 cfg state p
  | .https => deriveHttps cfg state p

def deriveRules (cfg : DeriveConfig) (set : PredicateSet) : Except DeriveError DeriveState :=
  set.predicates.foldlM (deriveStep cfg) ⟨[], [], [], []⟩

def derive (lib : Library) (cfg : DeriveConfig) (set : PredicateSet) :
    Except DeriveError RuleSet := do
  let state ← deriveRules cfg set
  match RuleSet.fromRules lib state.rules with
  | .ok rules => .ok rules
  | .error e => .error (.invalidName e.toString)

/-! ## What one predicate asks for -/

def reserved (p : Predicate) : List (Protocol × UInt16) :=
  match p.protocol with
  | .tcp => [(.tcp, p.listenPort)]
  | .udp => [(.udp, p.listenPort)]
  | .https => [(.tcp, p.listenPort), (.udp, p.listenPort)]

def derivedRules (cfg : DeriveConfig) (p : Predicate) : List Rule :=
  match p.protocol with
  | .tcp | .udp => [ruleFromPredicateL4 p cfg]
  | .https =>
      ruleFromHttpsPredicate p cfg .tcp ::
        if p.httpsHttp3 then [ruleFromHttpsPredicate p cfg .udp] else []

def derivedNames (p : Predicate) : List String :=
  match p.protocol with
  | .tcp | .udp => [p.name]
  | .https =>
      derivedHttpsRuleName p .tcp :: if p.httpsHttp3 then [derivedHttpsRuleName p .udp] else []

theorem map_name_derivedRules (cfg : DeriveConfig) (p : Predicate) :
    (derivedRules cfg p).map Rule.name = derivedNames p := by
  unfold derivedRules derivedNames
  cases p.protocol with
  | tcp => rfl
  | udp => rfl
  | https => cases p.httpsHttp3 <;> rfl

theorem claims_derivedRules (cfg : DeriveConfig) (p : Predicate) :
    ((derivedRules cfg p).map Rule.claim).Sublist
      ((reserved p).map (fun socket => (⟨cfg.bindAddr, socket.2⟩, socket.1))) := by
  unfold derivedRules reserved
  cases hprotocol : p.protocol with
  | tcp => simp [Rule.claim, ruleFromPredicateL4, hprotocol]
  | udp => simp [Rule.claim, ruleFromPredicateL4, hprotocol]
  | https => cases p.httpsHttp3 <;> simp [Rule.claim, ruleFromHttpsPredicate]

structure Derivable (set : PredicateSet) : Prop where
  proper : ∀ p ∈ set.predicates, validName p.name = true
  nonzero : ∀ p ∈ set.predicates, p.listenPort ≠ 0
  names : (set.predicates.map Predicate.name).Nodup
  ruleNames : (set.predicates.flatMap derivedNames).Nodup
  sockets : (set.predicates.flatMap reserved).Nodup

theorem validatePredicate_ok_iff {p : Predicate} :
    validatePredicate p = .ok () ↔ validName p.name = true ∧ p.listenPort ≠ 0 := by
  unfold validatePredicate validName
  rw [require_bind_ok_iff, require_ok_iff]
  simp

theorem insertRuleNameClaim_ok_iff {seen next : RuleNameClaims} {ruleName predicateName : String}
    (hseen : (seen.map Prod.fst).Nodup) :
    insertRuleNameClaim seen ruleName predicateName = .ok next ↔
      ((seen ++ [(ruleName, predicateName)]).map Prod.fst).Nodup ∧
        next = seen ++ [(ruleName, predicateName)] := by
  rw [List.map_append, List.map_singleton, nodup_append_singleton_iff hseen]
  unfold insertRuleNameClaim
  cases hfind : seen.find? (fun claim => claim.1 = ruleName) with
  | some claim =>
      have hname : claim.1 = ruleName := by simpa using List.find?_some hfind
      refine iff_of_false (by simp) fun hfresh => hfresh.1 ?_
      exact List.mem_map.2 ⟨claim, List.mem_of_find?_eq_some hfind, hname⟩
  | none =>
      have hfresh : ruleName ∉ seen.map Prod.fst := by
        intro hmem
        obtain ⟨claim, hclaim, rfl⟩ := List.mem_map.1 hmem
        exact List.find?_eq_none.1 hfind claim hclaim (decide_eq_true rfl)
      rw [Except.ok.injEq, and_iff_right hfresh, eq_comm]

variable {seen : List ListenClaim} {state : DeriveState} {cfg : DeriveConfig} {set : PredicateSet}

theorem insertListenClaim_ok_iff {next : List ListenClaim} {claim : ListenClaim} :
    insertListenClaim seen claim = .ok next ↔
      claim.socket ∉ seen.map ListenClaim.socket ∧
      (∀ other ∈ seen, other.port = claim.port →
        other.derivedFromHttps = claim.derivedFromHttps) ∧
      next = seen ++ [claim] := by
  unfold insertListenClaim
  cases hsame : seen.find? (fun existing =>
      existing.protocol = claim.protocol ∧ existing.port = claim.port) with
  | some existing =>
      have hsocket : existing.socket = claim.socket := by
        simpa [ListenClaim.socket] using List.find?_some hsame
      refine iff_of_false (by simp) fun hfresh => hfresh.1 ?_
      exact List.mem_map.2 ⟨existing, List.mem_of_find?_eq_some hsame, hsocket⟩
  | none =>
      have hfresh : claim.socket ∉ seen.map ListenClaim.socket := by
        simpa [ListenClaim.socket] using hsame
      rw [and_iff_right hfresh]
      cases hmixed : seen.find? (fun existing =>
          existing.port = claim.port ∧ existing.derivedFromHttps ≠ claim.derivedFromHttps) with
      | some existing =>
          have hclash := List.find?_some hmixed
          simp only [decide_eq_true_eq] at hclash
          refine iff_of_false (by simp) fun hpure => hclash.2 ?_
          exact hpure.1 existing (List.mem_of_find?_eq_some hmixed) hclash.1
      | none =>
          have hpure : ∀ other ∈ seen, other.port = claim.port →
              other.derivedFromHttps = claim.derivedFromHttps := by simpa using hmixed
          rw [Except.ok.injEq, and_iff_right hpure, eq_comm]

/-- Every claim is on a transport, and an HTTPS claim has its counterpart beside it. -/
def Paired (seen : List ListenClaim) : Prop :=
  ∀ claim ∈ seen, claim.protocol ≠ .https ∧
    (claim.derivedFromHttps = true →
      (.tcp, claim.port) ∈ seen.map ListenClaim.socket ∧
      (.udp, claim.port) ∈ seen.map ListenClaim.socket)

theorem Paired.socket_mem (hpaired : Paired seen) {claim : ListenClaim} (hclaim : claim ∈ seen) :
    (.tcp, claim.port) ∈ seen.map ListenClaim.socket ∨
      (.udp, claim.port) ∈ seen.map ListenClaim.socket := by
  have hprotocol := (hpaired claim hclaim).1
  cases hkind : claim.protocol with
  | tcp => exact .inl (List.mem_map.2 ⟨claim, hclaim, by rw [ListenClaim.socket, hkind]⟩)
  | udp => exact .inr (List.mem_map.2 ⟨claim, hclaim, by rw [ListenClaim.socket, hkind]⟩)
  | https => exact absurd hkind hprotocol

theorem insertListenClaim_l4_ok_iff {next : List ListenClaim} {p : Predicate}
    (hpaired : Paired seen) (hp : p.protocol ≠ .https) :
    insertListenClaim seen (.l4 p) = .ok next ↔
      (p.protocol, p.listenPort) ∉ seen.map ListenClaim.socket ∧
        next = seen ++ [ListenClaim.l4 p] := by
  rw [insertListenClaim_ok_iff]
  constructor
  · rintro ⟨hfresh, -, hnext⟩
    exact ⟨hfresh, hnext⟩
  · rintro ⟨hfresh, hnext⟩
    refine ⟨hfresh, ?_, hnext⟩
    intro other hother hport
    cases hkind : other.derivedFromHttps with
    | false => rfl
    | true =>
        obtain ⟨htcp, hudp⟩ := (hpaired other hother).2 hkind
        simp only [ListenClaim.l4] at hport
        rw [hport] at htcp hudp
        cases hprotocol : p.protocol with
        | tcp => exact absurd htcp (hprotocol ▸ hfresh)
        | udp => exact absurd hudp (hprotocol ▸ hfresh)
        | https => exact absurd hprotocol hp

theorem insertListenClaim_https_ok_iff {next : List ListenClaim} {p : Predicate}
    (hpaired : Paired seen) :
    (∃ between, insertListenClaim seen (.https p .tcp) = .ok between ∧
      insertListenClaim between (.https p .udp) = .ok next) ↔
      ((.tcp, p.listenPort) ∉ seen.map ListenClaim.socket ∧
        (.udp, p.listenPort) ∉ seen.map ListenClaim.socket) ∧
        next = seen ++ [ListenClaim.https p .tcp, ListenClaim.https p .udp] := by
  simp only [insertListenClaim_ok_iff]
  constructor
  · rintro ⟨between, ⟨htcp, -, rfl⟩, hudp, -, hnext⟩
    rw [List.map_append, List.mem_append, not_or] at hudp
    exact ⟨⟨htcp, hudp.1⟩, by simpa using hnext⟩
  · rintro ⟨⟨htcp, hudp⟩, hnext⟩
    have hpure : ∀ other ∈ seen, other.port = p.listenPort → other.derivedFromHttps = true := by
      intro other hother hport
      have hsocket := hpaired.socket_mem hother
      rw [hport] at hsocket
      exact absurd hsocket (not_or.2 ⟨htcp, hudp⟩)
    refine ⟨_, ⟨htcp, hpure, rfl⟩, ?_, ?_, by simpa using hnext⟩
    · rw [List.map_append, List.mem_append, not_or]
      exact ⟨hudp, by simp [ListenClaim.socket, ListenClaim.https]⟩
    · intro other hother hport
      rcases List.mem_append.1 hother with hold | hnew
      · exact hpure other hold hport
      · rw [List.mem_singleton.1 hnew]
        rfl

/-! ## The loop -/

def listenClaims (p : Predicate) : List ListenClaim :=
  match p.protocol with
  | .tcp | .udp => [.l4 p]
  | .https => [.https p .tcp, .https p .udp]

theorem map_socket_listenClaims (p : Predicate) :
    (listenClaims p).map ListenClaim.socket = reserved p := by
  unfold listenClaims reserved
  cases hprotocol : p.protocol with
  | tcp => simp [ListenClaim.socket, ListenClaim.l4, hprotocol]
  | udp => simp [ListenClaim.socket, ListenClaim.l4, hprotocol]
  | https => rfl

def DeriveState.extend (cfg : DeriveConfig) (state : DeriveState) (p : Predicate) : DeriveState :=
  ⟨state.seenNames ++ [p.name],
    state.seenRuleNames ++ (derivedNames p).map (fun ruleName => (ruleName, p.name)),
    state.seenListens ++ listenClaims p, state.rules ++ derivedRules cfg p⟩

structure DeriveState.Distinct (state : DeriveState) : Prop where
  names : state.seenNames.Nodup
  ruleNames : (state.seenRuleNames.map Prod.fst).Nodup
  sockets : (state.seenListens.map ListenClaim.socket).Nodup
  paired : Paired state.seenListens

structure Admits (state : DeriveState) (p : Predicate) : Prop where
  proper : validName p.name = true
  nonzero : p.listenPort ≠ 0
  name : (state.seenNames ++ [p.name]).Nodup
  ruleNames : (state.seenRuleNames.map Prod.fst ++ derivedNames p).Nodup
  sockets : (state.seenListens.map ListenClaim.socket ++ reserved p).Nodup

section

variable {cfg : DeriveConfig} {state next : DeriveState} {p : Predicate}

theorem deriveL4_ok_iff (hstate : state.Distinct) (hp : p.protocol ≠ .https) :
    deriveL4 cfg state p = .ok next ↔
      (state.seenRuleNames.map Prod.fst ++ derivedNames p).Nodup ∧
      (state.seenListens.map ListenClaim.socket ++ reserved p).Nodup ∧
      next = state.extend cfg p := by
  have hl4 : p.protocol = .tcp ∨ p.protocol = .udp := by
    cases hprotocol : p.protocol with
    | tcp => exact .inl rfl
    | udp => exact .inr rfl
    | https => exact absurd hprotocol hp
  have hnames : derivedNames p = [p.name] := by
    rcases hl4 with htcp | hudp
    · rw [derivedNames, htcp]
    · rw [derivedNames, hudp]
  have hsockets : reserved p = [(p.protocol, p.listenPort)] := by
    rcases hl4 with htcp | hudp
    · rw [reserved, htcp]
    · rw [reserved, hudp]
  have hextend : state.extend cfg p = ⟨state.seenNames ++ [p.name],
      state.seenRuleNames ++ [(p.name, p.name)], state.seenListens ++ [.l4 p],
      state.rules ++ [ruleFromPredicateL4 p cfg]⟩ := by
    rw [DeriveState.extend, listenClaims, derivedRules, hnames]
    rcases hl4 with htcp | hudp
    · rw [htcp, List.map_singleton]
    · rw [hudp, List.map_singleton]
  rw [hnames, hsockets, hextend, nodup_append_singleton_iff hstate.sockets]
  unfold deriveL4
  simp only [bind_ok_iff, insertRuleNameClaim_ok_iff hstate.ruleNames,
    insertListenClaim_l4_ok_iff hstate.paired hp, List.map_append, List.map_singleton,
    Except.ok.injEq]
  constructor
  · rintro ⟨ruleNames, ⟨hrule, rfl⟩, listens, ⟨hsocket, rfl⟩, hnext⟩
    exact ⟨hrule, hsocket, hnext.symm⟩
  · rintro ⟨hrule, hsocket, hnext⟩
    exact ⟨_, ⟨hrule, rfl⟩, _, ⟨hsocket, rfl⟩, hnext.symm⟩

theorem claimHttpsRuleNames_ok_iff {seen next : RuleNameClaims} (hseen : (seen.map Prod.fst).Nodup)
    (hp : p.protocol = .https) :
    claimHttpsRuleNames seen p = .ok next ↔
      (seen.map Prod.fst ++ derivedNames p).Nodup ∧
        next = seen ++ (derivedNames p).map (fun ruleName => (ruleName, p.name)) := by
  have hnames : derivedNames p = derivedHttpsRuleName p .tcp ::
      if p.httpsHttp3 then [derivedHttpsRuleName p .udp] else [] := by
    unfold derivedNames
    rw [hp]
  unfold claimHttpsRuleNames
  rw [hnames, bind_ok_iff]
  cases hhttp3 : p.httpsHttp3 with
  | false =>
      simp only [insertRuleNameClaim_ok_iff hseen, Bool.false_eq_true, if_false, Except.ok.injEq,
        List.map_append, List.map_cons, List.map_nil]
      constructor
      · rintro ⟨between, ⟨hnodup, rfl⟩, hnext⟩
        exact ⟨hnodup, hnext.symm⟩
      · rintro ⟨hnodup, hnext⟩
        exact ⟨_, ⟨hnodup, rfl⟩, hnext.symm⟩
  | true =>
      simp only [insertRuleNameClaim_ok_iff hseen, if_true, List.map_cons, List.map_nil]
      constructor
      · rintro ⟨between, ⟨hfirst, rfl⟩, hsecond⟩
        obtain ⟨hnodup, hnext⟩ := (insertRuleNameClaim_ok_iff hfirst).1 hsecond
        exact ⟨by simpa using hnodup, by simpa using hnext⟩
      · rintro ⟨hnodup, hnext⟩
        have hfirst : ((seen ++ [(derivedHttpsRuleName p .tcp, p.name)]).map Prod.fst).Nodup := by
          refine hnodup.sublist ?_
          simp
        exact ⟨_, ⟨hfirst, rfl⟩,
          (insertRuleNameClaim_ok_iff hfirst).2 ⟨by simpa using hnodup, by simpa using hnext⟩⟩

theorem deriveHttps_ok_iff (hstate : state.Distinct) (hp : p.protocol = .https) :
    deriveHttps cfg state p = .ok next ↔
      (state.seenRuleNames.map Prod.fst ++ derivedNames p).Nodup ∧
      (state.seenListens.map ListenClaim.socket ++ reserved p).Nodup ∧
      next = state.extend cfg p := by
  have hsockets : (state.seenListens.map ListenClaim.socket ++ reserved p).Nodup ↔
      (.tcp, p.listenPort) ∉ state.seenListens.map ListenClaim.socket ∧
        (.udp, p.listenPort) ∉ state.seenListens.map ListenClaim.socket := by
    unfold reserved
    rw [hp, nodup_append_iff_of_nodup hstate.sockets (by simp)]
    constructor
    · intro hdisjoint
      exact ⟨fun hmem => hdisjoint _ hmem (by simp), fun hmem => hdisjoint _ hmem (by simp)⟩
    · rintro ⟨htcp, hudp⟩ socket hmem hnew
      simp only [List.mem_cons, List.not_mem_nil, or_false] at hnew
      rcases hnew with rfl | rfl
      · exact htcp hmem
      · exact hudp hmem
  have hextend : state.extend cfg p = ⟨state.seenNames ++ [p.name],
      state.seenRuleNames ++ (derivedNames p).map (fun ruleName => (ruleName, p.name)),
      state.seenListens ++ [.https p .tcp, .https p .udp],
      state.rules ++ (ruleFromHttpsPredicate p cfg .tcp ::
        if p.httpsHttp3 then [ruleFromHttpsPredicate p cfg .udp] else [])⟩ := by
    unfold DeriveState.extend listenClaims derivedRules
    rw [hp]
  rw [hsockets, hextend]
  unfold deriveHttps
  simp only [bind_ok_iff, Except.ok.injEq]
  constructor
  · rintro ⟨ruleNames, hnames, claims, htcp, listens, hudp, hnext⟩
    obtain ⟨hnodup, rfl⟩ := (claimHttpsRuleNames_ok_iff hstate.ruleNames hp).1 hnames
    obtain ⟨hfresh, rfl⟩ :=
      (insertListenClaim_https_ok_iff hstate.paired).1 ⟨claims, htcp, hudp⟩
    exact ⟨hnodup, hfresh, hnext.symm⟩
  · rintro ⟨hnodup, hfresh, hnext⟩
    obtain ⟨claims, htcp, hudp⟩ :=
      (insertListenClaim_https_ok_iff hstate.paired).2 ⟨hfresh, rfl⟩
    exact ⟨_, (claimHttpsRuleNames_ok_iff hstate.ruleNames hp).2 ⟨hnodup, rfl⟩, claims, htcp, _,
      hudp, hnext.symm⟩

theorem deriveStep_ok_iff (hstate : state.Distinct) :
    deriveStep cfg state p = .ok next ↔ Admits state p ∧ next = state.extend cfg p := by
  have hbody : (match p.protocol with
      | .tcp | .udp => deriveL4 cfg state p
      | .https => deriveHttps cfg state p) = .ok next ↔
      (state.seenRuleNames.map Prod.fst ++ derivedNames p).Nodup ∧
      (state.seenListens.map ListenClaim.socket ++ reserved p).Nodup ∧
      next = state.extend cfg p := by
    cases hprotocol : p.protocol with
    | tcp => exact deriveL4_ok_iff hstate (by simp [hprotocol])
    | udp => exact deriveL4_ok_iff hstate (by simp [hprotocol])
    | https => exact deriveHttps_ok_iff hstate hprotocol
  unfold deriveStep
  rw [bind_ok_iff]
  simp only [require_bind_ok_iff, ← nodup_append_singleton_iff hstate.names]
  constructor
  · rintro ⟨value, hvalid, hname, hrest⟩
    obtain ⟨hproper, hnonzero⟩ := validatePredicate_ok_iff.1 hvalid
    obtain ⟨hrules, hsockets, hnext⟩ := hbody.1 hrest
    exact ⟨⟨hproper, hnonzero, hname, hrules, hsockets⟩, hnext⟩
  · rintro ⟨hadmits, hnext⟩
    exact ⟨(), validatePredicate_ok_iff.2 ⟨hadmits.proper, hadmits.nonzero⟩, hadmits.name,
      hbody.2 ⟨hadmits.ruleNames, hadmits.sockets, hnext⟩⟩

theorem paired_extend (hpaired : Paired state.seenListens) :
    Paired (state.extend cfg p).seenListens := by
  intro claim hclaim
  simp only [DeriveState.extend, List.map_append]
  rcases List.mem_append.1 hclaim with hold | hnew
  · obtain ⟨hprotocol, hpair⟩ := hpaired claim hold
    refine ⟨hprotocol, fun hhttps => ?_⟩
    exact ⟨List.mem_append_left _ (hpair hhttps).1, List.mem_append_left _ (hpair hhttps).2⟩
  · rw [map_socket_listenClaims]
    unfold listenClaims at hnew
    unfold reserved
    cases hprotocol : p.protocol with
    | tcp =>
        simp only [hprotocol, List.mem_singleton] at hnew
        simp [hnew, ListenClaim.l4, hprotocol]
    | udp =>
        simp only [hprotocol, List.mem_singleton] at hnew
        simp [hnew, ListenClaim.l4, hprotocol]
    | https =>
        simp only [hprotocol, List.mem_cons, List.not_mem_nil, or_false] at hnew
        rcases hnew with rfl | rfl <;> simp [ListenClaim.https]

theorem distinct_extend (hstate : state.Distinct) (hadmits : Admits state p) :
    (state.extend cfg p).Distinct where
  names := hadmits.name
  ruleNames := by
    simpa [DeriveState.extend, Function.comp_def] using hadmits.ruleNames
  sockets := by
    simpa [DeriveState.extend, map_socket_listenClaims] using hadmits.sockets
  paired := paired_extend hstate.paired

end

/-- What the loop asks of all remaining predicates at once. -/
structure AdmitsAll (state : DeriveState) (predicates : List Predicate) : Prop where
  proper : ∀ p ∈ predicates, validName p.name = true
  nonzero : ∀ p ∈ predicates, p.listenPort ≠ 0
  names : (state.seenNames ++ predicates.map Predicate.name).Nodup
  ruleNames : (state.seenRuleNames.map Prod.fst ++ predicates.flatMap derivedNames).Nodup
  sockets : (state.seenListens.map ListenClaim.socket ++ predicates.flatMap reserved).Nodup

theorem admitsAll_cons_iff (cfg : DeriveConfig) {p : Predicate} {predicates : List Predicate} :
    AdmitsAll state (p :: predicates) ↔
      Admits state p ∧ AdmitsAll (state.extend cfg p) predicates := by
  have hnames : (state.extend cfg p).seenNames ++ predicates.map Predicate.name =
      state.seenNames ++ (p :: predicates).map Predicate.name := by
    simp [DeriveState.extend]
  have hruleNames : (state.extend cfg p).seenRuleNames.map Prod.fst ++
      predicates.flatMap derivedNames =
      state.seenRuleNames.map Prod.fst ++ (p :: predicates).flatMap derivedNames := by
    simp [DeriveState.extend, Function.comp_def]
  have hsockets : (state.extend cfg p).seenListens.map ListenClaim.socket ++
      predicates.flatMap reserved =
      state.seenListens.map ListenClaim.socket ++ (p :: predicates).flatMap reserved := by
    simp [DeriveState.extend, map_socket_listenClaims]
  constructor
  · intro h
    refine ⟨⟨?_, ?_, ?_, ?_, ?_⟩, ⟨?_, ?_, ?_, ?_, ?_⟩⟩
    · exact h.proper p List.mem_cons_self
    · exact h.nonzero p List.mem_cons_self
    · exact h.names.sublist (List.Sublist.append_left (by simp) _)
    · exact h.ruleNames.sublist (List.Sublist.append_left (by simp) _)
    · exact h.sockets.sublist (List.Sublist.append_left (by simp) _)
    · exact fun q hq => h.proper q (List.mem_cons_of_mem p hq)
    · exact fun q hq => h.nonzero q (List.mem_cons_of_mem p hq)
    · exact hnames ▸ h.names
    · exact hruleNames ▸ h.ruleNames
    · exact hsockets ▸ h.sockets
  · rintro ⟨hp, hrest⟩
    refine ⟨?_, ?_, hnames ▸ hrest.names, hruleNames ▸ hrest.ruleNames,
      hsockets ▸ hrest.sockets⟩
    · exact List.forall_mem_cons.2 ⟨hp.proper, hrest.proper⟩
    · exact List.forall_mem_cons.2 ⟨hp.nonzero, hrest.nonzero⟩

theorem foldlM_deriveStep_ok_iff {final : DeriveState} {predicates : List Predicate}
    (hstate : state.Distinct) :
    predicates.foldlM (deriveStep cfg) state = .ok final ↔
      AdmitsAll state predicates ∧ final = predicates.foldl (DeriveState.extend cfg) state := by
  induction predicates generalizing state with
  | nil =>
      constructor
      · intro h
        exact ⟨⟨by simp, by simp, by simpa using hstate.names, by simpa using hstate.ruleNames,
          by simpa using hstate.sockets⟩, (Except.ok.inj h).symm⟩
      · rintro ⟨-, rfl⟩
        rfl
  | cons p predicates ih =>
      rw [List.foldlM_cons, bind_ok_iff, admitsAll_cons_iff cfg, List.foldl_cons]
      constructor
      · rintro ⟨next, hstep, hrest⟩
        obtain ⟨hadmits, rfl⟩ := (deriveStep_ok_iff hstate).1 hstep
        obtain ⟨hall, hfinal⟩ := (ih (distinct_extend hstate hadmits)).1 hrest
        exact ⟨⟨hadmits, hall⟩, hfinal⟩
      · rintro ⟨⟨hadmits, hall⟩, hfinal⟩
        exact ⟨_, (deriveStep_ok_iff hstate).2 ⟨hadmits, rfl⟩,
          (ih (distinct_extend hstate hadmits)).2 ⟨hall, hfinal⟩⟩

theorem rules_foldl_extend (cfg : DeriveConfig) (state : DeriveState)
    (predicates : List Predicate) :
    (predicates.foldl (DeriveState.extend cfg) state).rules =
      state.rules ++ predicates.flatMap (derivedRules cfg) := by
  induction predicates generalizing state with
  | nil => simp
  | cons p predicates ih => simp [ih, DeriveState.extend]

theorem distinct_start : DeriveState.Distinct ⟨[], [], [], []⟩ :=
  ⟨List.nodup_nil, List.nodup_nil, List.nodup_nil, by simp [Paired]⟩

theorem deriveRules_ok_iff : (∃ state, deriveRules cfg set = .ok state) ↔ Derivable set := by
  unfold deriveRules
  simp only [foldlM_deriveStep_ok_iff distinct_start]
  constructor
  · rintro ⟨state, h, -⟩
    exact ⟨h.proper, h.nonzero, h.names, h.ruleNames, h.sockets⟩
  · intro h
    exact ⟨_, ⟨h.proper, h.nonzero, h.names, h.ruleNames, h.sockets⟩, rfl⟩

theorem rules_of_deriveRules (h : deriveRules cfg set = .ok state) :
    state.rules = set.predicates.flatMap (derivedRules cfg) := by
  rw [((foldlM_deriveStep_ok_iff distinct_start).1 h).2, rules_foldl_extend, List.nil_append]

/-! ## The derived rules are valid -/

theorem hasBlank_append (first second : String) :
    hasBlank (first ++ second) = (hasBlank first || hasBlank second) := by
  simp [hasBlank, String.toList_append]

theorem validate_relay (lib : Library) {rule : Rule} (hname : validName rule.name = true)
    (hlisten : rule.listen.port ≠ 0) {port : UInt16} (hport : rule.targetPort = some port)
    (hnonzero : port ≠ 0) (htarget : rule.target = none)
    (hprotocol : rule.protocol = .tcp ∧ rule.idleTimeout = none ∨
      rule.protocol = .udp ∧ rule.proxyProtocol ≠ some .v1) :
    rule.validate lib = .ok () := by
  simp only [validName, Bool.and_eq_true, decide_eq_true_eq] at hname
  have htargets : rule.validateTarget lib = .ok () := by
    unfold Rule.validateTarget
    rw [hport, htarget]
    exact require_ok_iff.2 hnonzero
  have hl4 : rule.validateL4 lib = .ok () := by
    unfold Rule.validateL4
    rw [bind_ok_iff]
    refine ⟨(), htargets, require_bind_ok_iff.2 ⟨by simp [htarget], ?_⟩⟩
    rcases hprotocol with ⟨htcp, hidle⟩ | ⟨hudp, hproxy⟩
    · rw [htcp]
      exact require_ok_iff.2 hidle
    · rw [hudp]
      exact require_ok_iff.2 hproxy
  unfold Rule.validate
  rw [require_bind_ok_iff, require_bind_ok_iff, require_bind_ok_iff]
  refine ⟨hname.1, hname.2, hlisten, ?_⟩
  rcases hprotocol with ⟨htcp, -⟩ | ⟨hudp, -⟩
  · rw [htcp]
    exact hl4
  · rw [hudp]
    exact hl4

theorem validName_derivedHttpsRuleName {p : Predicate} (hproper : validName p.name = true)
    {leg : Protocol} (hleg : hasBlank ("-" ++ leg.asStr) = false) :
    validName (derivedHttpsRuleName p leg) = true := by
  simp only [validName, Bool.and_eq_true, Bool.not_eq_true', decide_eq_true_eq] at hproper ⊢
  refine ⟨?_, ?_⟩
  · unfold derivedHttpsRuleName
    intro hempty
    exact hproper.1 (String.append_eq_empty_iff.1 hempty).1
  · rw [derivedHttpsRuleName, hasBlank_append, hproper.2, hleg]
    rfl

theorem validate_derivedRules (lib : Library) (cfg : DeriveConfig) {p : Predicate}
    (hproper : validName p.name = true) (hnonzero : p.listenPort ≠ 0) :
    ∀ rule ∈ derivedRules cfg p, rule.validate lib = .ok () := by
  have htcp : (ruleFromHttpsPredicate p cfg .tcp).validate lib = .ok () :=
    validate_relay lib (validName_derivedHttpsRuleName hproper (by decide)) hnonzero rfl hnonzero
      rfl (.inl ⟨rfl, rfl⟩)
  have hudp : (ruleFromHttpsPredicate p cfg .udp).validate lib = .ok () :=
    validate_relay lib (validName_derivedHttpsRuleName hproper (by decide)) hnonzero rfl hnonzero
      rfl (.inr ⟨rfl, by simp [ruleFromHttpsPredicate]⟩)
  intro rule hrule
  unfold derivedRules at hrule
  cases hprotocol : p.protocol with
  | tcp =>
      rw [hprotocol] at hrule
      rw [List.mem_singleton.1 hrule]
      exact validate_relay lib hproper hnonzero rfl hnonzero rfl
        (.inl ⟨hprotocol, by simp [ruleFromPredicateL4, hprotocol]⟩)
  | udp =>
      rw [hprotocol] at hrule
      rw [List.mem_singleton.1 hrule]
      exact validate_relay lib hproper hnonzero rfl hnonzero rfl
        (.inr ⟨hprotocol, by simp [ruleFromPredicateL4, hprotocol]⟩)
  | https =>
      rw [hprotocol] at hrule
      rcases List.mem_cons.1 hrule with rfl | hrest
      · exact htcp
      · cases hhttp3 : p.httpsHttp3 with
        | false => simp [hhttp3] at hrest
        | true =>
            rw [hhttp3, if_pos rfl, List.mem_singleton] at hrest
            rw [hrest]
            exact hudp

theorem map_name_flatMap_derivedRules (cfg : DeriveConfig) (predicates : List Predicate) :
    (predicates.flatMap (derivedRules cfg)).map Rule.name = predicates.flatMap derivedNames := by
  rw [List.map_flatMap]
  exact List.flatMap_congr (fun p _ => map_name_derivedRules cfg p)

theorem claims_flatMap_derivedRules (cfg : DeriveConfig) (predicates : List Predicate) :
    ((predicates.flatMap (derivedRules cfg)).map Rule.claim).Sublist
      ((predicates.flatMap reserved).map
        (fun socket => (⟨cfg.bindAddr, socket.2⟩, socket.1))) := by
  induction predicates with
  | nil => exact List.Sublist.refl _
  | cons p predicates ih =>
      simp only [List.flatMap_cons, List.map_append]
      exact (claims_derivedRules cfg p).append ih

theorem fromRules_derived (lib : Library) (cfg : DeriveConfig) (hset : Derivable set) :
    ∃ rules, RuleSet.fromRules lib (set.predicates.flatMap (derivedRules cfg)) = .ok rules := by
  have hvalid : ∀ rule ∈ set.predicates.flatMap (derivedRules cfg), rule.validate lib = .ok () := by
    intro rule hrule
    obtain ⟨p, hp, hmem⟩ := List.mem_flatMap.1 hrule
    exact validate_derivedRules lib cfg (hset.proper p hp) (hset.nonzero p hp) rule hmem
  have hnames : ((set.predicates.flatMap (derivedRules cfg)).map Rule.name).Nodup := by
    rw [map_name_flatMap_derivedRules]
    exact hset.ruleNames
  have hclaims : ((set.predicates.flatMap (derivedRules cfg)).map Rule.claim).Nodup := by
    refine List.Nodup.sublist (claims_flatMap_derivedRules cfg set.predicates) ?_
    refine hset.sockets.map ?_
    intro first second heq
    simp only [Prod.mk.injEq, SocketAddr.mk.injEq, true_and] at heq
    exact Prod.ext heq.2 heq.1
  exact ⟨⟨_, [], fun rule hrule => Rule.bindable_of_validate lib (hvalid rule hrule), hnames,
    hclaims⟩, RuleSet.fromRules_ok_iff.2 ⟨hvalid, rfl, rfl⟩⟩

theorem derive_ok_iff {lib : Library} {rules : RuleSet} :
    derive lib cfg set = .ok rules ↔
      Derivable set ∧ rules.rules = set.predicates.flatMap (derivedRules cfg) ∧
        rules.routes = [] := by
  unfold derive
  rw [bind_ok_iff]
  constructor
  · rintro ⟨state, hstate, hrules⟩
    split at hrules
    · rename_i built hbuilt
      cases hrules
      obtain ⟨-, hparts, hroutes⟩ := RuleSet.fromRules_ok_iff.1 hbuilt
      exact ⟨deriveRules_ok_iff.1 ⟨state, hstate⟩,
        hparts.trans (rules_of_deriveRules hstate), hroutes⟩
    · cases hrules
  · rintro ⟨hset, hparts, hroutes⟩
    obtain ⟨state, hstate⟩ := deriveRules_ok_iff.2 hset
    obtain ⟨built, hbuilt⟩ := fromRules_derived lib cfg hset
    refine ⟨state, hstate, ?_⟩
    rw [rules_of_deriveRules hstate, hbuilt]
    obtain ⟨-, hbuiltRules, hbuiltRoutes⟩ := RuleSet.fromRules_ok_iff.1 hbuilt
    exact congrArg Except.ok
      (RuleSet.eq_of_parts (hbuiltRules.trans hparts.symm) (hbuiltRoutes.trans hroutes.symm))

theorem exists_derive_iff {lib : Library} :
    (∃ rules, derive lib cfg set = .ok rules) ↔ Derivable set := by
  constructor
  · rintro ⟨rules, h⟩
    exact (derive_ok_iff.1 h).1
  · intro hset
    obtain ⟨built, hbuilt⟩ := fromRules_derived lib cfg hset
    obtain ⟨-, hrules, hroutes⟩ := RuleSet.fromRules_ok_iff.1 hbuilt
    exact ⟨built, derive_ok_iff.2 ⟨hset, hrules, hroutes⟩⟩

/--
`derive` succeeds exactly on the derivable sets; the rules are then those of
the predicates in order and each passes its own validation; and the rules of a
finished loop are never refused as a rule set.
-/
theorem derive_characterisation (lib : Library) (cfg : DeriveConfig) (set : PredicateSet) :
    ((∃ rules, derive lib cfg set = .ok rules) ↔ Derivable set) ∧
    (∀ rules, derive lib cfg set = .ok rules →
      rules.rules = set.predicates.flatMap (derivedRules cfg) ∧ rules.routes = [] ∧
      ∀ rule ∈ rules.rules, rule.validate lib = .ok ()) ∧
    (∀ state, deriveRules cfg set = .ok state →
      ∃ rules, RuleSet.fromRules lib state.rules = .ok rules) := by
  refine ⟨exists_derive_iff, ?_, ?_⟩
  · intro rules h
    obtain ⟨hset, hrules, hroutes⟩ := derive_ok_iff.1 h
    refine ⟨hrules, hroutes, ?_⟩
    rw [hrules]
    intro rule hrule
    obtain ⟨p, hp, hmem⟩ := List.mem_flatMap.1 hrule
    exact validate_derivedRules lib cfg (hset.proper p hp) (hset.nonzero p hp) rule hmem
  · intro state hstate
    rw [rules_of_deriveRules hstate]
    exact fromRules_derived lib cfg (deriveRules_ok_iff.1 ⟨state, hstate⟩)

end Yggdrasil.Chain
