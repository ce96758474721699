import Yggdrasil.Chain.Derive

/-!
# Extraction of predicates from rules

A terminal projects its rule set to a predicate set: one predicate per rule, and
one named `public-https` for all routes together.  Terminal and relay do not
check the same things to be unique: addresses and user names on one side, ports
and the names derived for HTTPS on the other.
-/

namespace Yggdrasil.Chain

open Foundation Ratatoskr

structure HttpsPredicateMeta where
  listenPort : UInt16
  http3 : Bool
  deriving DecidableEq, Repr

def HttpsPredicateMeta.default : HttpsPredicateMeta := ⟨443, true⟩

def saturatingMillis (nanos : Nat) : UInt64 :=
  if nanos / 1000000 < 2 ^ 64 then UInt64.ofNat (nanos / 1000000) else UInt64.ofNat (2 ^ 64 - 1)

def projectRule (rule : Rule) : Predicate where
  name := rule.name
  listenPort := rule.listen.port
  protocol := rule.protocol
  idleTimeoutMs :=
    match rule.protocol with
    | .udp => rule.idleTimeout.map saturatingMillis
    | _ => none
  httpsHttp3 := false

def projectRoutes (https : HttpsPredicateMeta) : Predicate where
  name := "public-https"
  listenPort := https.listenPort
  protocol := .https
  idleTimeoutMs := none
  httpsHttp3 := https.http3

def projections (ruleset : RuleSet) (https : HttpsPredicateMeta) : List Predicate :=
  ruleset.rules.map projectRule ++ if ruleset.routes = [] then [] else [projectRoutes https]

-- no rule of a rule set is an HTTPS rule, so the source's `unreachable!` is not modelled
def extract (ruleset : RuleSet) (https : HttpsPredicateMeta) (origin : PubKey) : PredicateSet where
  predicates := (projections ruleset https).insertionSort
    (fun a b => Postcard.strBytes a.name ≤ Postcard.strBytes b.name)
  origin := origin

theorem derivable_of_perm {set other : PredicateSet} (hperm : set.predicates.Perm other.predicates)
    (h : Derivable set) : Derivable other where
  proper := fun p hp => h.proper p (hperm.mem_iff.2 hp)
  nonzero := fun p hp => h.nonzero p (hperm.mem_iff.2 hp)
  names := (hperm.map Predicate.name).nodup_iff.1 h.names
  ruleNames := (hperm.flatMap_right derivedNames).nodup_iff.1 h.ruleNames
  sockets := (hperm.flatMap_right reserved).nodup_iff.1 h.sockets

theorem perm_extract (ruleset : RuleSet) (https : HttpsPredicateMeta) (origin : PubKey) :
    (extract ruleset https origin).predicates.Perm (projections ruleset https) :=
  List.perm_insertionSort _ _

theorem derivable_extract_iff (ruleset : RuleSet) (https : HttpsPredicateMeta) (origin : PubKey) :
    Derivable (extract ruleset https origin) ↔
      Derivable ⟨projections ruleset https, origin⟩ :=
  ⟨derivable_of_perm (perm_extract ruleset https origin),
    derivable_of_perm (perm_extract ruleset https origin).symm⟩

def socketOf (rule : Rule) : Protocol × UInt16 := (rule.protocol, rule.listen.port)

/-- The sockets of the HTTPS frontend; it exists only with routes. -/
def httpsSockets (https : HttpsPredicateMeta) : List (Protocol × UInt16) :=
  (.tcp, https.listenPort) :: if https.http3 then [(.udp, https.listenPort)] else []

def servedSockets (ruleset : RuleSet) (https : HttpsPredicateMeta) : List (Protocol × UInt16) :=
  ruleset.rules.map socketOf ++ if ruleset.routes = [] then [] else httpsSockets https

def httpsNames (https : HttpsPredicateMeta) : List String :=
  "public-https" :: "public-https-tcp" :: if https.http3 then ["public-https-udp"] else []

/-- No two rules share a port, and with routes none uses the HTTPS port or a name of its own. -/
structure Portable (ruleset : RuleSet) (https : HttpsPredicateMeta) : Prop where
  sockets : (ruleset.rules.map socketOf).Nodup
  port : ruleset.routes ≠ [] → ∀ rule ∈ ruleset.rules, rule.listen.port ≠ https.listenPort
  names : ruleset.routes ≠ [] → ∀ rule ∈ ruleset.rules, rule.name ∉ httpsNames https

section Projections

variable {ruleset : RuleSet} {https : HttpsPredicateMeta}

theorem map_name_projections :
    (projections ruleset https).map Predicate.name =
      ruleset.rules.map Rule.name ++ if ruleset.routes = [] then [] else ["public-https"] := by
  unfold projections
  rw [List.map_append, List.map_map]
  split <;> rfl

theorem flatMap_projectRule {α : Type} {f : Predicate → List α} {g : Rule → α}
    (htcp : ∀ rule, rule.protocol = .tcp → f (projectRule rule) = [g rule])
    (hudp : ∀ rule, rule.protocol = .udp → f (projectRule rule) = [g rule]) :
    (ruleset.rules.map projectRule).flatMap f = ruleset.rules.map g := by
  rw [List.flatMap_map, List.map_eq_flatMap]
  refine List.flatMap_congr ?_
  intro rule hrule
  cases hprotocol : rule.protocol with
  | tcp => exact htcp rule hprotocol
  | udp => exact hudp rule hprotocol
  | https => exact absurd hprotocol (ruleset.bindable rule hrule).1

theorem flatMap_derivedNames_projectRule :
    (ruleset.rules.map projectRule).flatMap derivedNames = ruleset.rules.map Rule.name :=
  flatMap_projectRule (fun rule h => by rw [projectRule, h, derivedNames])
    (fun rule h => by rw [projectRule, h, derivedNames])

theorem flatMap_reserved_projectRule :
    (ruleset.rules.map projectRule).flatMap reserved = ruleset.rules.map socketOf :=
  flatMap_projectRule (fun rule h => by rw [projectRule, socketOf, h, reserved])
    (fun rule h => by rw [projectRule, socketOf, h, reserved])

theorem flatMap_derivedNames_projections :
    (projections ruleset https).flatMap derivedNames =
      ruleset.rules.map Rule.name ++
        if ruleset.routes = [] then [] else (httpsNames https).tail := by
  unfold projections
  rw [List.flatMap_append, flatMap_derivedNames_projectRule]
  split
  · rfl
  · cases hhttp3 : https.http3 with
    | false => simp [derivedNames, projectRoutes, httpsNames, hhttp3, derivedHttpsRuleName,
        Protocol.asStr]
    | true => simp [derivedNames, projectRoutes, httpsNames, hhttp3, derivedHttpsRuleName,
        Protocol.asStr]

theorem flatMap_reserved_projections :
    (projections ruleset https).flatMap reserved =
      ruleset.rules.map socketOf ++
        if ruleset.routes = [] then []
        else [(.tcp, https.listenPort), (.udp, https.listenPort)] := by
  unfold projections
  rw [List.flatMap_append, flatMap_reserved_projectRule]
  split <;> rfl

theorem names_projections_iff :
    ((projections ruleset https).map Predicate.name).Nodup ∧
      ((projections ruleset https).flatMap derivedNames).Nodup ↔
    (ruleset.routes ≠ [] → ∀ rule ∈ ruleset.rules, rule.name ∉ httpsNames https) := by
  have hlegs : (httpsNames https).tail.Nodup := by
    unfold httpsNames
    cases https.http3 <;> decide
  rw [map_name_projections, flatMap_derivedNames_projections]
  by_cases hroutes : ruleset.routes = []
  · simp [hroutes, ruleset.names_nodup]
  · rw [if_neg hroutes, if_neg hroutes,
      nodup_append_iff_of_nodup ruleset.names_nodup (List.nodup_singleton _),
      nodup_append_iff_of_nodup ruleset.names_nodup hlegs]
    simp only [List.forall_mem_map]
    constructor
    · rintro ⟨hname, hleg⟩ - rule hrule hmem
      rcases List.mem_cons.1 hmem with hpublic | hmem
      · exact hname rule hrule (List.mem_singleton.2 hpublic)
      · exact hleg rule hrule hmem
    · intro h
      refine ⟨fun rule hrule hmem => ?_, fun rule hrule hmem => ?_⟩
      · exact h hroutes rule hrule (List.mem_cons.2 (.inl (List.mem_singleton.1 hmem)))
      · exact h hroutes rule hrule (List.mem_cons.2 (.inr hmem))

theorem sockets_projections_iff :
    ((projections ruleset https).flatMap reserved).Nodup ↔
      (ruleset.rules.map socketOf).Nodup ∧
      (ruleset.routes ≠ [] → ∀ rule ∈ ruleset.rules, rule.listen.port ≠ https.listenPort) := by
  rw [flatMap_reserved_projections]
  by_cases hroutes : ruleset.routes = []
  · simp [hroutes]
  · rw [if_neg hroutes]
    constructor
    · intro hnodup
      have hrules : (ruleset.rules.map socketOf).Nodup := hnodup.of_append_left
      refine ⟨hrules, fun _ rule hrule hport => ?_⟩
      have hfresh := (nodup_append_iff_of_nodup hrules (by simp)).1 hnodup (socketOf rule)
        (List.mem_map_of_mem hrule)
      apply hfresh
      unfold socketOf
      cases hprotocol : rule.protocol with
      | tcp => simp [hport]
      | udp => simp [hport]
      | https => exact absurd hprotocol (ruleset.bindable rule hrule).1
    · rintro ⟨hrules, hport⟩
      refine (nodup_append_iff_of_nodup hrules (by simp)).2 ?_
      intro socket hsocket hmem
      obtain ⟨rule, hrule, rfl⟩ := List.mem_map.1 hsocket
      apply hport hroutes rule hrule
      simp only [socketOf, List.mem_cons, Prod.mk.injEq, List.not_mem_nil, or_false] at hmem
      rcases hmem with ⟨-, hport⟩ | ⟨-, hport⟩
      · exact hport
      · exact hport

variable {lib : Library}

theorem validName_of_validate {rule : Rule} (h : rule.validate lib = .ok ()) :
    validName rule.name = true := by
  unfold Rule.validate at h
  obtain ⟨hname, h⟩ := require_bind_ok_iff.1 h
  obtain ⟨hblank, -⟩ := require_bind_ok_iff.1 h
  unfold validName
  rw [hblank]
  simpa using hname

theorem derivable_projections_iff (origin : PubKey)
    (hvalid : ∀ rule ∈ ruleset.rules, rule.validate lib = .ok ()) (hport : https.listenPort ≠ 0) :
    Derivable ⟨projections ruleset https, origin⟩ ↔ Portable ruleset https := by
  constructor
  · intro h
    obtain ⟨hsockets, hports⟩ := sockets_projections_iff.1 h.sockets
    exact ⟨hsockets, hports, names_projections_iff.1 ⟨h.names, h.ruleNames⟩⟩
  · intro h
    have hmem : ∀ p ∈ projections ruleset https,
        (∃ rule ∈ ruleset.rules, projectRule rule = p) ∨ p = projectRoutes https := by
      intro p hp
      rcases List.mem_append.1 hp with hrule | hroutes
      · exact .inl (List.mem_map.1 hrule)
      · split at hroutes
        · cases hroutes
        · exact .inr (List.mem_singleton.1 hroutes)
    obtain ⟨hnames, hruleNames⟩ := names_projections_iff.2 h.names
    refine ⟨?_, ?_, hnames, hruleNames, sockets_projections_iff.2 ⟨h.sockets, h.port⟩⟩
    · intro p hp
      rcases hmem p hp with ⟨rule, hrule, rfl⟩ | rfl
      · exact validName_of_validate (hvalid rule hrule)
      · exact (by decide : validName "public-https" = true)
    · intro p hp
      rcases hmem p hp with ⟨rule, hrule, rfl⟩ | rfl
      · exact (ruleset.bindable rule hrule).2
      · exact hport

theorem map_socketOf_derivedRules (cfg : DeriveConfig) {rule : Rule}
    (hl4 : rule.protocol ≠ .https) :
    (derivedRules cfg (projectRule rule)).map socketOf = [socketOf rule] := by
  unfold derivedRules projectRule
  cases hprotocol : rule.protocol with
  | tcp => simp [socketOf, ruleFromPredicateL4, hprotocol]
  | udp => simp [socketOf, ruleFromPredicateL4, hprotocol]
  | https => exact absurd hprotocol hl4

theorem map_socketOf_projections (cfg : DeriveConfig) :
    ((projections ruleset https).flatMap (derivedRules cfg)).map socketOf =
      servedSockets ruleset https := by
  have hrules : ((ruleset.rules.map projectRule).flatMap (derivedRules cfg)).map socketOf =
      ruleset.rules.map socketOf := by
    rw [List.map_flatMap, List.flatMap_map, List.map_eq_flatMap]
    refine List.flatMap_congr ?_
    intro rule hrule
    exact map_socketOf_derivedRules cfg (ruleset.bindable rule hrule).1
  unfold projections servedSockets
  rw [List.flatMap_append, List.map_append, hrules]
  split
  · rfl
  · cases hhttp3 : https.http3 with
    | false => simp [derivedRules, projectRoutes, httpsSockets, hhttp3, ruleFromHttpsPredicate,
        socketOf]
    | true => simp [derivedRules, projectRoutes, httpsSockets, hhttp3, ruleFromHttpsPredicate,
        socketOf]

theorem mem_sockets_of_derive {cfg : DeriveConfig} {origin : PubKey} {derived : RuleSet}
    (h : derive lib cfg (extract ruleset https origin) = .ok derived) (socket : Protocol × UInt16) :
    socket ∈ derived.rules.map socketOf ↔ socket ∈ servedSockets ruleset https := by
  rw [(derive_ok_iff.1 h).2.1, ← map_socketOf_projections cfg]
  exact (((perm_extract ruleset https origin).flatMap_right (derivedRules cfg)).map
    socketOf).mem_iff

end Projections

/--
An accepted rule set reaches the relay with the terminal's own sockets exactly
when it is portable.
-/
theorem relay_serves_terminal_iff {lib : Library} {rules : List Rule} {routes : List HttpRoute}
    {ruleset : RuleSet} (haccepted : RuleSet.fromParts lib rules routes = .ok ruleset)
    {https : HttpsPredicateMeta} (hport : https.listenPort ≠ 0) (cfg : DeriveConfig)
    (origin : PubKey) :
    (∃ derived, derive lib cfg (extract ruleset https origin) = .ok derived ∧
      ∀ socket, socket ∈ derived.rules.map socketOf ↔
        socket ∈ servedSockets ruleset https) ↔ Portable ruleset https := by
  obtain ⟨hvalid, -, hrules, -⟩ := RuleSet.fromParts_ok_iff.1 haccepted
  rw [← hrules] at hvalid
  rw [← derivable_projections_iff origin hvalid hport, ← derivable_extract_iff]
  constructor
  · rintro ⟨derived, hderive, -⟩
    exact (derive_ok_iff.1 hderive).1
  · intro hderivable
    obtain ⟨derived, hderive⟩ := exists_derive_iff.2 hderivable
    exact ⟨derived, hderive, mem_sockets_of_derive hderive⟩

def sshRule (name : String) (addr : IpAddr) : Rule :=
  ⟨name, ⟨addr, 22⟩, .tcp, none, some "backend:22", none, none⟩

def webRoute (hostname : String) : HttpRoute := ⟨hostname, "http://backend:8080", none, []⟩

def twoAddresses : RuleSet where
  rules := [sshRule "ssh-a" (.v4 0x7f000001), sshRule "ssh-b" (.v4 0x7f000002)]
  routes := []
  bindable := by decide
  names_nodup := by decide
  claims_nodup := by decide

def publicHttpsRule : RuleSet where
  rules := [sshRule "public-https" (.v4 0x7f000001)]
  routes := [webRoute "www.example"]
  bindable := by decide
  names_nodup := by decide
  claims_nodup := by decide

/-- Both sets are accepted by the terminal and refused by the relay. -/
theorem accepted_sets_refused_by_relay :
    (RuleSet.fromParts .plain twoAddresses.rules twoAddresses.routes = .ok twoAddresses ∧
      derive .plain ⟨.v4 0, none⟩
          (extract twoAddresses .default (.x25519 ⟨.replicate 32 7, rfl⟩)) =
        .error (.duplicateListenPort "ssh-a" "ssh-b" "tcp" 22)) ∧
    (RuleSet.fromParts .plain publicHttpsRule.rules publicHttpsRule.routes =
        .ok publicHttpsRule ∧
      derive .plain ⟨.v4 0, none⟩
          (extract publicHttpsRule .default (.x25519 ⟨.replicate 32 7, rfl⟩)) =
        .error (.duplicateName "public-https")) := by
  refine ⟨⟨RuleSet.fromParts_ok_iff.2 ⟨?_, by simp [twoAddresses], rfl, rfl, by decide⟩, rfl⟩,
    ⟨RuleSet.fromParts_ok_iff.2 ⟨?_, ?_, rfl, rfl, by decide⟩, rfl⟩⟩
  · exact List.forall_mem_cons.2 ⟨rfl, List.forall_mem_singleton.2 rfl⟩
  · exact List.forall_mem_singleton.2 rfl
  · exact List.forall_mem_singleton.2 rfl

def sshAndWeb : RuleSet where
  rules := [sshRule "ssh" (.v4 0x7f000001)]
  routes := [webRoute "www.example"]
  bindable := by decide
  names_nodup := by decide
  claims_nodup := by decide

theorem relay_serves_terminal_sshAndWeb :
    ∃ derived, derive .plain ⟨.v4 0, none⟩
        (extract sshAndWeb .default (.x25519 ⟨.replicate 32 7, rfl⟩)) = .ok derived ∧
      ∀ socket, socket ∈ derived.rules.map socketOf ↔ socket ∈ servedSockets sshAndWeb .default := by
  have haccepted : RuleSet.fromParts .plain sshAndWeb.rules sshAndWeb.routes = .ok sshAndWeb := by
    refine RuleSet.fromParts_ok_iff.2 ⟨?_, ?_, rfl, rfl, by decide⟩
    · exact List.forall_mem_singleton.2 rfl
    · exact List.forall_mem_singleton.2 rfl
  exact (relay_serves_terminal_iff haccepted (by decide) ⟨.v4 0, none⟩ _).2
    ⟨by decide, fun _ => by decide, fun _ => by decide⟩

end Yggdrasil.Chain
