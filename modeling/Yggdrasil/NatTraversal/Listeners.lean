import Yggdrasil.NatTraversal.Convergence
import Yggdrasil.Proxy.Supervisor

/-!
# Listeners and the mappings that lead to them

The supervisor binds a listener where the node's default bind address puts it
when the rule names a wildcard.  The mapper derives its target from the rule as
it is published, before any override, and of several targets with one protocol
and port it requests the one its set yields first.
-/

namespace Yggdrasil.NatTraversal

open Foundation Ratatoskr Proxy

/-- RFC 1918, carrier-grade NAT and benchmarking: first addresses with the lengths in bits. -/
def privateNetworks : List (Nat × Nat) :=
  [(0x0A000000, 8), (0xAC100000, 12), (0xC0A80000, 16), (0x64400000, 10), (0xC6120000, 15)]

def InNetwork (v4 : Ipv4Addr) (network : Nat × Nat) : Prop :=
  v4.toNat / 2 ^ (32 - network.2) = network.1 / 2 ^ (32 - network.2)

instance (v4 : Ipv4Addr) (network : Nat × Nat) : Decidable (InNetwork v4 network) :=
  inferInstanceAs (Decidable (_ = _))

theorem isRfc1918OrCgnat_iff {v4 : Ipv4Addr} :
    isRfc1918OrCgnat v4 = true ↔ ∃ network ∈ privateNetworks, InNetwork v4 network := by
  simp only [isRfc1918OrCgnat, Bool.or_eq_true, Bool.and_eq_true, beq_iff_eq, decide_eq_true_eq]
  simp only [octets, privateNetworks, InNetwork, List.exists_mem_cons_iff, List.not_mem_nil,
    false_and, exists_false, or_false]
  omega

def MappedAs (localSource : Ipv4Addr) (ip : IpAddr) (addr : Ipv4Addr) : Prop :=
  (ip = .v4 0 ∧ addr = localSource) ∨
    (ip = .v4 addr ∧ ∃ network ∈ privateNetworks, InNetwork addr network)

variable {addr : Ipv4Addr} {rule : Rule}

theorem mappedAs_iff {localSource : Ipv4Addr} {ip : IpAddr} :
    MappedAs localSource ip addr ↔
      ∃ v4, filterBindIp ip = .keep v4 ∧ addr = resolvedInternal localSource v4 := by
  simp only [filterBindIp_keep_iff, Bool.or_eq_true, isRfc1918OrCgnat_iff]
  constructor
  · rintro (⟨rfl, rfl⟩ | ⟨rfl, hnetwork⟩)
    · exact ⟨0, ⟨rfl, .inl rfl⟩, rfl⟩
    · refine ⟨addr, ⟨rfl, .inr hnetwork⟩, ?_⟩
      rw [resolvedInternal, if_neg]
      intro hzero
      obtain rfl := eq_of_beq hzero
      exact absurd (isRfc1918OrCgnat_iff.2 hnetwork) (by decide)
  · rintro ⟨v4, ⟨rfl, hzero | hnetwork⟩, rfl⟩
    · rw [resolvedInternal, if_pos hzero]
      exact .inl ⟨congrArg IpAddr.v4 (eq_of_beq hzero), rfl⟩
    · by_cases hzero : isUnspecified v4 = true
      · rw [resolvedInternal, if_pos hzero]
        exact .inl ⟨congrArg IpAddr.v4 (eq_of_beq hzero), rfl⟩
      · rw [resolvedInternal, if_neg hzero]
        exact .inr ⟨rfl, hnetwork⟩

def ruleKey (rule : Rule) : MappingKey :=
  (if rule.protocol = .udp then .udp else .tcp, rule.listen.port)

def ruleTargets (localSource : Ipv4Addr) (rule : Rule) : List MappingTarget :=
  (enumerateRule localSource ⟨[], []⟩ rule).targets

/-- A socket the node listens on, which the gateway may be asked to forward to. -/
structure Listener where
  protocol : MapProtocol
  listen : SocketAddr
  origin : MappingOrigin

def Listener.offered (localSource : Ipv4Addr) (listener : Listener) : List MappingTarget :=
  match filterBindIp listener.listen.ip with
  | .skip _ => []
  | .keep v4 =>
      [⟨listener.protocol, listener.listen.port, resolvedInternal localSource v4, listener.origin⟩]

def httpsListeners (https : HttpsTarget) : List Listener :=
  [⟨.tcp, https.listen, .rule "https"⟩,
    ⟨.tcp, ⟨https.listen.ip, 80⟩, .httpsRedirect https.listen.ip⟩] ++
      if https.http3 then [⟨.udp, https.listen, .http3 "https"⟩] else []

def ruleListener (rule : Rule) : Listener :=
  ⟨(ruleKey rule).1, rule.listen, .rule rule.name⟩

def Reconciler.listeners (mapper : Reconciler) (set : RuleSet) : List Listener :=
  set.rules.map ruleListener ++
    (if set.routes = [] then []
      else httpsListeners ⟨mapper.params.httpsListen, mapper.params.httpsHttp3⟩) ++
    mapper.params.acceptListen.toList.map fun listen => ⟨.udp, listen, .acceptListen⟩

section

variable {localSource : Ipv4Addr} {rule : Rule} {target : MappingTarget} {listener : Listener}
  {enumeration : TargetEnumeration}

theorem of_mem_offered (h : target ∈ listener.offered localSource) :
    target.key = (listener.protocol, listener.listen.port) ∧
      MappedAs localSource listener.listen.ip target.internalAddr := by
  unfold Listener.offered at h
  split at h
  · cases h
  · rename_i v4 hfilter
    rw [List.mem_singleton] at h
    subst h
    exact ⟨rfl, mappedAs_iff.2 ⟨v4, hfilter, rfl⟩⟩

theorem exists_mem_offered (h : MappedAs localSource listener.listen.ip addr) :
    ∃ target ∈ listener.offered localSource, target.internalAddr = addr := by
  obtain ⟨v4, hfilter, rfl⟩ := mappedAs_iff.1 h
  rw [Listener.offered, hfilter]
  exact ⟨_, List.mem_singleton.2 rfl, rfl⟩

theorem ruleTargets_eq (hl4 : rule.protocol ≠ .https) :
    ruleTargets localSource rule = (ruleListener rule).offered localSource := by
  unfold ruleTargets enumerateRule Listener.offered ruleListener ruleKey
  cases filterBindIp rule.listen.ip with
  | skip reason => rfl
  | keep v4 =>
      cases hprotocol : rule.protocol with
      | tcp => rfl
      | udp => rfl
      | https => exact absurd hprotocol hl4

theorem mem_enumerateRule_iff :
    target ∈ (enumerateRule localSource enumeration rule).targets ↔
      target ∈ enumeration.targets ∨ target ∈ ruleTargets localSource rule := by
  unfold ruleTargets enumerateRule
  cases filterBindIp rule.listen.ip with
  | skip reason => simp [TargetEnumeration.skip]
  | keep v4 =>
      cases rule.protocol with
      | tcp => simp [TargetEnumeration.insert, or_comm]
      | udp => simp [TargetEnumeration.insert, or_comm]
      | https => simp

theorem mem_foldl_enumerateRule_iff {rules : List Rule} :
    target ∈ (rules.foldl (enumerateRule localSource) enumeration).targets ↔
      target ∈ enumeration.targets ∨ ∃ rule ∈ rules, target ∈ ruleTargets localSource rule := by
  induction rules generalizing enumeration with
  | nil => simp
  | cons rule rest ih =>
      rw [List.foldl_cons, ih, mem_enumerateRule_iff, List.exists_mem_cons_iff, or_assoc]

/-- The companion is wanted where the HTTPS listener is. -/
theorem mem_enumerateRedirect_iff (https : HttpsTarget) :
    target ∈ (enumerateRedirect localSource (enumerateHttps localSource enumeration (some https)).1
        (enumerateHttps localSource enumeration (some https)).2).targets ↔
      target ∈ enumeration.targets ∨
        ∃ listener ∈ httpsListeners https, target ∈ listener.offered localSource := by
  cases hfilter : filterBindIp https.listen.ip with
  | skip reason =>
      simp [enumerateHttps, hfilter, enumerateRedirect, TargetEnumeration.skip, httpsListeners,
        Listener.offered]
  | keep v4 =>
      have hip := (filterBindIp_keep_iff.1 hfilter).1
      rw [hip] at hfilter
      cases hhttp3 : https.http3 <;>
        simp [enumerateHttps, hip, hfilter, hhttp3, enumerateRedirect, TargetEnumeration.insert,
          httpsListeners, Listener.offered] <;> tauto

theorem mem_enumerateAccept_iff (acceptListen : Option SocketAddr) :
    target ∈ (enumerateAccept localSource enumeration acceptListen).targets ↔
      target ∈ enumeration.targets ∨ ∃ listen ∈ acceptListen,
        target ∈ Listener.offered localSource ⟨.udp, listen, .acceptListen⟩ := by
  cases acceptListen with
  | none => simp [enumerateAccept]
  | some listen =>
      obtain ⟨ip, port⟩ := listen
      cases ip with
      | v6 bits => simp [enumerateAccept, TargetEnumeration.skip, Listener.offered, filterBindIp]
      | v4 bits =>
          cases hfilter : filterBindIp (.v4 bits) with
          | skip reason =>
              simp [enumerateAccept, hfilter, TargetEnumeration.skip, Listener.offered]
          | keep v4 =>
              obtain rfl := IpAddr.v4.inj (filterBindIp_keep_iff.1 hfilter).1
              simp [enumerateAccept, hfilter, TargetEnumeration.insert, Listener.offered, or_comm]

theorem mem_desiredTargets_iff {set : RuleSet} (mapper : Reconciler) :
    target ∈ mapper.desiredTargets set ↔
      ∃ listener ∈ mapper.listeners set, target ∈ listener.offered mapper.params.localSource := by
  have hrules : (∃ rule ∈ set.rules, target ∈ ruleTargets mapper.params.localSource rule) ↔
      ∃ rule ∈ set.rules, target ∈ (ruleListener rule).offered mapper.params.localSource :=
    exists_congr fun rule => and_congr_right fun hrule => by
      rw [ruleTargets_eq (set.bindable rule hrule).1]
  unfold Reconciler.desiredTargets enumerateTargets Reconciler.listeners
  split_ifs with hroutes
  · simp [mem_enumerateAccept_iff, enumerateHttps, enumerateRedirect, mem_foldl_enumerateRule_iff,
      hrules, or_and_right, exists_or]
  · simp [mem_enumerateAccept_iff, mem_enumerateRedirect_iff, mem_foldl_enumerateRule_iff,
      hrules, or_and_right, exists_or, or_assoc]

end

def preferring (target : MappingTarget) : World :=
  { plainWorld (answering []) with
    targetOrder := fun _ targets =>
      if target ∈ targets then target :: targets.erase target else targets
    targetOrder_perm := fun _ targets => by
      split
      · rename_i hmem
        exact (List.perm_cons_erase hmem).symm
      · exact .refl targets }

theorem lookup_preferring {set : RuleSet} {mapper : Reconciler} {target : MappingTarget}
    {listener : Listener} (hlistener : listener ∈ mapper.listeners set)
    (htarget : target ∈ listener.offered mapper.params.localSource) :
    (mapper.desiredTable (preferring target) set).lookup
      (listener.protocol, listener.listen.port) = some target := by
  have hwanted : target ∈ mapper.desiredTargets set :=
    (mem_desiredTargets_iff mapper).2 ⟨listener, hlistener, htarget⟩
  have horder : (preferring target).targetOrder mapper.drawn (mapper.desiredTargets set) =
      target :: (mapper.desiredTargets set).erase target := if_pos hwanted
  rw [← (of_mem_offered htarget).1, Reconciler.desiredTable, Reconciler.lookup_byKey, horder,
    List.find?_cons_of_pos (by simp)]

theorem listen_withBindOverride_cases (rule : Rule) (defaultBind : Option IpAddr) :
    (rule.withBindOverride defaultBind).listen.ip = rule.listen.ip ∨
      (rule.listen.ip = .v4 0 ∧ ∃ v4, defaultBind = some (.v4 v4) ∧
        (rule.withBindOverride defaultBind).listen.ip = .v4 v4) ∨
      ∃ bits bits', rule.listen.ip = .v6 bits ∧
        (rule.withBindOverride defaultBind).listen.ip = .v6 bits' := by
  unfold Rule.withBindOverride
  split
  · exact .inl rfl
  · rename_i ip
    split_ifs with hkept
    · exact .inl rfl
    · simp only [Bool.or_eq_true, Bool.not_eq_true', not_or, Bool.not_eq_false] at hkept
      obtain ⟨hwildcard, hfamily⟩ := hkept
      cases hlisten : rule.listen.ip with
      | v4 bits =>
          cases ip with
          | v4 v4 =>
              rw [hlisten] at hwildcard
              refine .inr (.inl ⟨congrArg IpAddr.v4 (eq_of_beq hwildcard), v4, rfl, rfl⟩)
          | v6 bits' =>
              rw [hlisten] at hfamily
              cases hfamily
      | v6 bits =>
          cases ip with
          | v4 v4 =>
              rw [hlisten] at hfamily
              cases hfamily
          | v6 bits' => exact .inr (.inr ⟨bits, bits', rfl, rfl⟩)

theorem not_mappedAs_v6 {localSource : Ipv4Addr} {bits : BitVec 128} :
    ¬ MappedAs localSource (.v6 bits) addr := by
  rintro (⟨h, -⟩ | ⟨h, -⟩)
  · cases h
  · cases h

theorem mappedAs_wildcard_iff {localSource : Ipv4Addr} :
    MappedAs localSource (.v4 0) addr ↔ addr = localSource := by
  constructor
  · rintro (⟨-, haddr⟩ | ⟨hzero, hnetwork⟩)
    · exact haddr
    · cases hzero
      exact absurd (isRfc1918OrCgnat_iff.2 hnetwork) (by decide)
  · exact fun haddr => .inl ⟨rfl, haddr⟩

theorem listen_of_wildcard (hlisten : rule.listen.ip = .v4 0) (v4 : Ipv4Addr) :
    (rule.withBindOverride (some (.v4 v4))).listen.ip = .v4 v4 := by
  simp [Rule.withBindOverride, hlisten, IpAddr.isUnspecified, sameFamily]

theorem mappedAs_published {localSource : Ipv4Addr} {defaultBind : Option IpAddr}
    (h : MappedAs localSource (rule.withBindOverride defaultBind).listen.ip addr) :
    ∃ published, MappedAs localSource rule.listen.ip published := by
  rcases listen_withBindOverride_cases rule defaultBind with
    hsame | ⟨hlisten, -⟩ | ⟨bits, bits', -, hbound⟩
  · exact ⟨addr, hsame ▸ h⟩
  · exact ⟨localSource, .inl ⟨hlisten, rfl⟩⟩
  · rw [hbound] at h
    exact absurd h not_mappedAs_v6

/--
The table of wanted mappings has one for the listener wherever it is to be
mapped, and has the rule's own target only then.
-/
def Follows (localSource : Ipv4Addr) (rule : Rule) (bound : SocketAddr)
    (desired : Reconciler.TargetTable) : Prop :=
  (∀ addr, MappedAs localSource bound.ip addr →
    ∃ target, desired.lookup (ruleKey rule) = some target ∧ target.internalAddr = addr) ∧
  ∀ target ∈ ruleTargets localSource rule, desired.lookup (ruleKey rule) = some target →
    MappedAs localSource bound.ip target.internalAddr

/--
The mapper follows a running listener, whatever order its set has, exactly when
the default bind address has not moved it away from the local source and no
other listener with its protocol and port is to be mapped at another address.
-/
theorem mappings_follow_listeners_iff (defaultBind : Option IpAddr)
    (calls : List (Surroundings × RuleSet)) (supervisor : Supervisor)
    (hrun : run (Supervisor.step defaultBind) .start calls = some supervisor) (rule : Rule)
    (hrule : rule ∈ supervisor.currentSet.rules) (proxy : ActiveProxy)
    (hrunning : supervisor.active.lookup rule.name = some proxy) (mapper : Reconciler) :
    (∀ world, Follows mapper.params.localSource rule proxy.localAddr
        (mapper.desiredTable world supervisor.currentSet)) ↔
      (rule.listen.ip = .v4 0 → ∀ v4, defaultBind = some (.v4 v4) →
        MappedAs mapper.params.localSource (.v4 v4) mapper.params.localSource) ∧
      ∀ addr, MappedAs mapper.params.localSource proxy.localAddr.ip addr →
        ∀ listener ∈ mapper.listeners supervisor.currentSet,
          (listener.protocol, listener.listen.port) = ruleKey rule →
            ∀ other, MappedAs mapper.params.localSource listener.listen.ip other →
              other = addr := by
  have hl4 := (supervisor.currentSet.bindable rule hrule).1
  have hbound : proxy.localAddr = (rule.withBindOverride defaultBind).listen := by
    obtain ⟨current, hcurrent, hproxy⟩ := Supervisor.tracks_of_run hrun rule.name proxy hrunning
    rw [supervisor.currentSet.find_of_mem hrule] at hcurrent
    cases hcurrent
    rw [ActiveProxy.localAddr, hproxy]
  have hlistens : ruleListener rule ∈ mapper.listeners supervisor.currentSet :=
    List.mem_append_left _ (List.mem_append_left _ (List.mem_map_of_mem hrule))
  rw [hbound]
  set bound := (rule.withBindOverride defaultBind).listen
  constructor
  · intro hfollows
    constructor
    · rintro hlisten v4 rfl
      have hpublished : MappedAs mapper.params.localSource (ruleListener rule).listen.ip
          mapper.params.localSource := .inl ⟨hlisten, rfl⟩
      obtain ⟨target, htarget, haddr⟩ := exists_mem_offered hpublished
      have hmapped := (hfollows (preferring target)).2 target
        (ruleTargets_eq hl4 ▸ htarget) (lookup_preferring hlistens htarget)
      rwa [haddr, listen_of_wildcard hlisten v4] at hmapped
    · intro addr hmapped listener hlistener hkey other hother
      obtain ⟨target, htarget, rfl⟩ := exists_mem_offered hother
      have hwanted := hkey ▸ lookup_preferring hlistener htarget
      obtain ⟨found, hfound, haddr⟩ := (hfollows (preferring target)).1 addr hmapped
      rw [← haddr, Option.some.inj (hwanted.symm.trans hfound)]
  · rintro ⟨hdefault, hunshared⟩ world
    constructor
    · intro addr hmapped
      obtain ⟨published, hpublished⟩ : ∃ published, MappedAs mapper.params.localSource
          (ruleListener rule).listen.ip published := mappedAs_published hmapped
      obtain ⟨target, htarget, -⟩ := exists_mem_offered hpublished
      have hkey : ruleKey rule ∈ mapper.desiredTable world supervisor.currentSet :=
        Reconciler.mem_desiredTable.2 (List.mem_map.2 ⟨target,
          (mem_desiredTargets_iff mapper).2 ⟨_, hlistens, htarget⟩, (of_mem_offered htarget).1⟩)
      obtain ⟨found, hfound⟩ := mem_iff_lookup.1 hkey
      obtain ⟨hwanted, hfoundkey⟩ := Reconciler.of_lookup_desiredTable hfound
      obtain ⟨listener, hlistener, hoffered⟩ := (mem_desiredTargets_iff mapper).1 hwanted
      obtain ⟨hshared, hother⟩ := of_mem_offered hoffered
      exact ⟨found, hfound, hunshared addr hmapped listener hlistener
        (hshared.symm.trans hfoundkey) _ hother⟩
    · intro target htarget _
      rw [ruleTargets_eq hl4] at htarget
      have hpublished : MappedAs mapper.params.localSource rule.listen.ip target.internalAddr :=
        (of_mem_offered htarget).2
      rcases listen_withBindOverride_cases rule defaultBind with
        hsame | ⟨hlisten, v4, rfl, hmoved⟩ | ⟨bits, bits', hlisten, -⟩
      · rwa [hsame]
      · rw [hlisten, mappedAs_wildcard_iff] at hpublished
        rw [hmoved, hpublished]
        exact hdefault hlisten v4 rfl
      · rw [hlisten] at hpublished
        exact absurd hpublished not_mappedAs_v6

def wildcardRules : RuleSet where
  rules := [⟨"ssh", ⟨.v4 0, 22⟩, .tcp, some 22, none, none, none⟩]
  routes := []
  bindable := by decide
  names_nodup := by decide
  claims_nodup := by decide

/-- The default bind address is the local source itself. -/
theorem source_listener_followed :
    ∃ supervisor proxy,
      run (Supervisor.step (some (.v4 0xC0A8010A))) .start
        [(Supervisor.obliging, wildcardRules)] = some supervisor ∧
      supervisor.active.lookup "ssh" = some proxy ∧
      proxy.localAddr = ⟨.v4 0xC0A8010A, 22⟩ ∧
      ∀ world, Follows 0xC0A8010A ⟨"ssh", ⟨.v4 0, 22⟩, .tcp, some 22, none, none, none⟩
        proxy.localAddr ((Reconciler.new pcpParams).desiredTable world supervisor.currentSet) := by
  have hsource : MappedAs 0xC0A8010A (.v4 0xC0A8010A) 0xC0A8010A :=
    .inr ⟨rfl, (0xC0A80000, 16), by decide, by decide⟩
  refine ⟨_, _, rfl, rfl, rfl, (mappings_follow_listeners_iff (some (.v4 0xC0A8010A))
    [(Supervisor.obliging, wildcardRules)] _ rfl _ List.mem_cons_self _ rfl
    (.new pcpParams)).2 ⟨?_, ?_⟩⟩
  · rintro - v4 hdefault
    cases hdefault
    exact hsource
  · rintro addr (⟨hzero, -⟩ | ⟨hbound, -⟩) listener hlistener - other hother
    · exact absurd hzero (by decide)
    · obtain rfl := List.mem_singleton.1 hlistener
      exact (mappedAs_wildcard_iff.1 hother).trans (IpAddr.v4.inj hbound)

/-- A listener on the loopback address, which the mapper takes for one on every address. -/
theorem loopback_listener_mapped :
    ∃ supervisor proxy,
      run (Supervisor.step (some (.v4 0x7F000001))) .start
        [(Supervisor.obliging, wildcardRules)] = some supervisor ∧
      supervisor.active.lookup "ssh" = some proxy ∧
      proxy.localAddr = ⟨.v4 0x7F000001, 22⟩ ∧
      (∀ addr, ¬ MappedAs 0xC0A8010A proxy.localAddr.ip addr) ∧
      ((Reconciler.new pcpParams).desiredTable Reconciler.steadyWorld supervisor.currentSet).lookup
        (.tcp, 22) = some ⟨.tcp, 22, 0xC0A8010A, .rule "ssh"⟩ := by
  have hwanted :
      ((Reconciler.new pcpParams).desiredTable Reconciler.steadyWorld wildcardRules).lookup
        (.tcp, 22) = some ⟨.tcp, 22, 0xC0A8010A, .rule "ssh"⟩ := by decide
  refine ⟨_, _, rfl, rfl, rfl, ?_, hwanted⟩
  intro addr hmapped
  obtain ⟨v4, hkept, -⟩ := mappedAs_iff.1 hmapped
  cases hkept

end Yggdrasil.NatTraversal
