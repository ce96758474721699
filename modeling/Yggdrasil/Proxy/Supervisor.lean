import Yggdrasil.Foundation.Run
import Yggdrasil.Ratatoskr.RuleSet

/-!
# The proxy supervisor's L4 reconcile

A new rule set is applied by its diff against the set applied before: removed
rules are stopped, changed rules are stopped and respawned one after another,
added rules are spawned, unchanged rules are not looked at.  A spawn that fails
leaves its rule offline, and the new set is recorded all the same.

The HTTPS frontend and the redirect listeners enter only through the sockets
they hold.
-/

namespace Yggdrasil.Proxy

open Foundation Ratatoskr

structure ActiveProxy where
  /-- The rule as it was bound, after the bind override. -/
  rule : Rule
  /-- Tells two spawns of one rule apart. -/
  handle : Nat
  deriving DecidableEq, Repr

def ActiveProxy.localAddr (proxy : ActiveProxy) : SocketAddr := proxy.rule.listen

def ActiveProxy.claim (proxy : ActiveProxy) : Claim := (proxy.localAddr, proxy.rule.protocol)

abbrev ActiveTable := AList (fun _ : String => ActiveProxy)

structure Surroundings where
  resolves : Rule → Bool
  /-- Whether a bind succeeds while the supervisor holds the given sockets. -/
  binds : List Claim → Claim → Bool
  /-- The sockets of the HTTPS side once its routes are reconciled. -/
  reconcileHttps : List Claim → List HttpRoute → List Claim

structure Supervisor where
  active : ActiveTable
  https : List Claim
  currentSet : RuleSet
  spawned : Nat

inductive SpawnError where
  | alreadyClaimed (name : String) (claim : Claim)
  | buildResolver (name : String)
  | bind (name : String) (claim : Claim)
  | httpsRule (name : String)
  deriving DecidableEq, Repr

namespace Supervisor

def start : Supervisor := ⟨∅, [], .empty, 0⟩

def collectClaimedAddrs (active : ActiveTable) : List Claim :=
  active.entries.map (fun entry => entry.2.claim)

section

variable (defaultBind : Option IpAddr) (env : Surroundings)

/-- The L4 arm: the resolver is built first, then the listeners are bound. -/
def spawnListener (supervisor : Supervisor) (rule : Rule) : Except SpawnError ActiveProxy :=
  if !env.resolves rule then .error (.buildResolver rule.name)
  else if !env.binds (collectClaimedAddrs supervisor.active ++ supervisor.https) rule.claim then
    .error (.bind rule.name rule.claim)
  else .ok ⟨rule, supervisor.spawned⟩

def spawnProxyForRule (supervisor : Supervisor) (rule : Rule) : Except SpawnError ActiveProxy :=
  let rule := rule.withBindOverride defaultBind
  if rule.claim ∈ collectClaimedAddrs supervisor.active then
    .error (.alreadyClaimed rule.name rule.claim)
  else
    match rule.protocol with
    | .tcp | .udp => supervisor.spawnListener env rule
    | .https => .error (.httpsRule rule.name)

def bringOnline (supervisor : Supervisor) (rule : Rule) : Supervisor :=
  match supervisor.spawnProxyForRule defaultBind env rule with
  | .ok proxy =>
      { supervisor with
        active := supervisor.active.insert rule.name proxy
        spawned := supervisor.spawned + 1 }
  | .error _ => supervisor

def stop (supervisor : Supervisor) (name : String) : Supervisor :=
  { supervisor with active := supervisor.active.erase name }

def swap (supervisor : Supervisor) (change : RuleChange) : Supervisor :=
  (supervisor.stop change.old.name).bringOnline defaultBind env change.new

def applyUpdate (supervisor : Supervisor) (diff : RuleDiff) : Supervisor :=
  let supervisor :=
    { supervisor with active := eraseAll (diff.removed.map Rule.name) supervisor.active }
  let supervisor := diff.changed.foldl (swap defaultBind env) supervisor
  diff.added.foldl (bringOnline defaultBind env) supervisor

def applySet (supervisor : Supervisor) (newSet : RuleSet) : Supervisor :=
  let supervisor := supervisor.applyUpdate defaultBind env (supervisor.currentSet.diff newSet)
  { supervisor with
    https := env.reconcileHttps supervisor.https newSet.routes
    currentSet := newSet }

end

/-- Rule files and pushed sets are applied alike; every call has its own surroundings. -/
def step (defaultBind : Option IpAddr) (supervisor : Supervisor)
    (call : Surroundings × RuleSet) : Option Supervisor :=
  some (supervisor.applySet defaultBind call.1 call.2)

variable {defaultBind : Option IpAddr} {env : Surroundings} {supervisor : Supervisor}

theorem mem_collectClaimedAddrs {active : ActiveTable} {claim : Claim} :
    claim ∈ collectClaimedAddrs active ↔
      ∃ name proxy, active.lookup name = some proxy ∧ proxy.claim = claim := by
  unfold collectClaimedAddrs
  rw [List.mem_map]
  constructor
  · rintro ⟨⟨name, proxy⟩, hmem, rfl⟩
    exact ⟨name, proxy, (mem_entries_iff active).1 hmem, rfl⟩
  · rintro ⟨name, proxy, hlookup, rfl⟩
    exact ⟨⟨name, proxy⟩, (mem_entries_iff active).2 hlookup, rfl⟩

variable {rule : Rule} {proxy : ActiveProxy} {name : String} {new newSet : RuleSet}

theorem spawnListener_ok (h : supervisor.spawnListener env rule = .ok proxy) :
    proxy = ⟨rule, supervisor.spawned⟩ := by
  unfold spawnListener at h
  split_ifs at h
  exact (Except.ok.inj h).symm

theorem spawnProxyForRule_ok (h : supervisor.spawnProxyForRule defaultBind env rule = .ok proxy) :
    proxy = ⟨rule.withBindOverride defaultBind, supervisor.spawned⟩ := by
  unfold spawnProxyForRule at h
  dsimp only at h
  split at h
  · cases h
  · split at h
    · exact spawnListener_ok h
    · exact spawnListener_ok h
    · cases h

theorem bringOnline_cases (defaultBind : Option IpAddr) (env : Surroundings)
    (supervisor : Supervisor) (rule : Rule) :
    supervisor.bringOnline defaultBind env rule = supervisor ∨
      supervisor.bringOnline defaultBind env rule =
        { supervisor with
          active := supervisor.active.insert rule.name
            ⟨rule.withBindOverride defaultBind, supervisor.spawned⟩
          spawned := supervisor.spawned + 1 } := by
  unfold bringOnline
  cases hspawn : supervisor.spawnProxyForRule defaultBind env rule with
  | error e => exact .inl rfl
  | ok proxy =>
      rw [spawnProxyForRule_ok hspawn]
      exact .inr rfl

/-- Resolvers build, and a bind succeeds exactly on a socket the supervisor does not hold. -/
structure Cooperative (env : Surroundings) : Prop where
  resolves : ∀ rule, env.resolves rule = true
  binds : ∀ held claim, env.binds held claim = true ↔ claim ∉ held

theorem bringOnline_of_cooperative (henv : Cooperative env) (hl4 : rule.protocol ≠ .https)
    (hhttps : (rule.withBindOverride defaultBind).claim ∉ supervisor.https) :
    supervisor.bringOnline defaultBind env rule =
      if (rule.withBindOverride defaultBind).claim ∈ collectClaimedAddrs supervisor.active then
        supervisor
      else
        { supervisor with
          active := supervisor.active.insert rule.name
            ⟨rule.withBindOverride defaultBind, supervisor.spawned⟩
          spawned := supervisor.spawned + 1 } := by
  unfold bringOnline spawnProxyForRule
  by_cases hclaimed :
      (rule.withBindOverride defaultBind).claim ∈ collectClaimedAddrs supervisor.active
  · simp only [if_pos hclaimed]
  · have hbinds : env.binds (collectClaimedAddrs supervisor.active ++ supervisor.https)
        (rule.withBindOverride defaultBind).claim = true := by
      rw [henv.binds, List.mem_append]
      rintro (hheld | hheld)
      · exact hclaimed hheld
      · exact hhttps hheld
    have hprotocol : (rule.withBindOverride defaultBind).protocol ≠ .https := by
      rwa [Rule.protocol_withBindOverride]
    have hspawn : supervisor.spawnListener env (rule.withBindOverride defaultBind) =
        .ok ⟨rule.withBindOverride defaultBind, supervisor.spawned⟩ := by
      simp only [spawnListener, henv.resolves, hbinds, Bool.not_true, Bool.false_eq_true,
        if_false]
    simp only [if_neg hclaimed, hspawn]
    cases hp : (rule.withBindOverride defaultBind).protocol with
    | tcp => rfl
    | udp => rfl
    | https => exact absurd hp hprotocol

def respawn (defaultBind : Option IpAddr) (env : Surroundings) (supervisor : Supervisor)
    (rule : Rule) : Supervisor :=
  (supervisor.stop rule.name).bringOnline defaultBind env rule

@[simp] theorem https_respawn (supervisor : Supervisor) (rule : Rule) :
    (supervisor.respawn defaultBind env rule).https = supervisor.https := by
  unfold respawn
  rcases bringOnline_cases defaultBind env (supervisor.stop rule.name) rule with h | h
  · rw [h]
    rfl
  · rw [h]
    rfl

theorem lookup_respawn_ne (supervisor : Supervisor) (hne : name ≠ rule.name) :
    (supervisor.respawn defaultBind env rule).active.lookup name =
      supervisor.active.lookup name := by
  unfold respawn
  rcases bringOnline_cases defaultBind env (supervisor.stop rule.name) rule with h | h
  · rw [h, stop, AList.lookup_erase_ne hne]
  · rw [h, AList.lookup_insert_ne hne, stop, AList.lookup_erase_ne hne]

theorem rule_of_lookup_respawn
    (h : (supervisor.respawn defaultBind env rule).active.lookup rule.name = some proxy) :
    proxy.rule = rule.withBindOverride defaultBind := by
  unfold respawn at h
  rcases bringOnline_cases defaultBind env (supervisor.stop rule.name) rule with hnext | hnext
  · rw [hnext, stop, AList.lookup_erase] at h
    cases h
  · rw [hnext, AList.lookup_insert] at h
    rw [← Option.some.inj h]

section

variable (defaultBind env)

theorem lookup_foldl_respawn_ne {rules : List Rule} (supervisor : Supervisor) {name : String}
    (hne : name ∉ rules.map Rule.name) :
    (rules.foldl (respawn defaultBind env) supervisor).active.lookup name =
      supervisor.active.lookup name := by
  induction rules generalizing supervisor with
  | nil => rfl
  | cons first rest ih =>
      rw [List.map_cons, List.mem_cons, not_or] at hne
      rw [List.foldl_cons, ih _ hne.2, lookup_respawn_ne _ hne.1]

theorem rule_of_lookup_foldl_respawn {rules : List Rule} (hnames : (rules.map Rule.name).Nodup)
    (supervisor : Supervisor) {rule : Rule} (hrule : rule ∈ rules) {proxy : ActiveProxy}
    (h : (rules.foldl (respawn defaultBind env) supervisor).active.lookup rule.name =
      some proxy) :
    proxy.rule = rule.withBindOverride defaultBind := by
  induction rules generalizing supervisor with
  | nil => cases hrule
  | cons first rest ih =>
      rw [List.map_cons, List.nodup_cons] at hnames
      rw [List.foldl_cons] at h
      rcases List.mem_cons.1 hrule with rfl | hrest
      · rw [lookup_foldl_respawn_ne _ _ _ hnames.1] at h
        exact rule_of_lookup_respawn h
      · exact ih hnames.2 _ hrest h

end

/-- No rule still waiting for its turn holds the socket an earlier one moves to. -/
def Uncrossed (defaultBind : Option IpAddr) (supervisor : Supervisor) (rules : List Rule) :
    Prop :=
  rules.Pairwise (fun earlier later => ∀ proxy,
    supervisor.active.lookup later.name = some proxy →
      proxy.claim ≠ (earlier.withBindOverride defaultBind).claim)

theorem online_iff (henv : Cooperative env) (hl4 : rule.protocol ≠ .https)
    (hhttps : (rule.withBindOverride defaultBind).claim ∉ supervisor.https) :
    rule.name ∈ (supervisor.respawn defaultBind env rule).active ↔
      ∀ name proxy, name ≠ rule.name → supervisor.active.lookup name = some proxy →
        proxy.claim ≠ (rule.withBindOverride defaultBind).claim := by
  have hclaimed : (rule.withBindOverride defaultBind).claim ∈
        collectClaimedAddrs (supervisor.stop rule.name).active ↔
      ∃ name proxy, name ≠ rule.name ∧ supervisor.active.lookup name = some proxy ∧
        proxy.claim = (rule.withBindOverride defaultBind).claim := by
    rw [mem_collectClaimedAddrs]
    constructor
    · rintro ⟨name, proxy, hlookup, hclaim⟩
      by_cases hname : name = rule.name
      · rw [hname, stop, AList.lookup_erase] at hlookup
        cases hlookup
      · rw [stop, AList.lookup_erase_ne hname] at hlookup
        exact ⟨name, proxy, hname, hlookup, hclaim⟩
    · rintro ⟨name, proxy, hname, hlookup, hclaim⟩
      refine ⟨name, proxy, ?_, hclaim⟩
      rw [stop, AList.lookup_erase_ne hname, hlookup]
  rw [respawn, bringOnline_of_cooperative henv hl4 (by exact hhttps)]
  split_ifs with hheld
  · obtain ⟨name, proxy, hname, hlookup, hclaim⟩ := hclaimed.1 hheld
    constructor
    · intro hmem
      rw [← AList.lookup_isSome, stop, AList.lookup_erase] at hmem
      cases hmem
    · intro hfree
      exact absurd hclaim (hfree name proxy hname hlookup)
  · constructor
    · intro _ name proxy hname hlookup hclaim
      exact hheld (hclaimed.2 ⟨name, proxy, hname, hlookup, hclaim⟩)
    · intro _
      rw [← AList.lookup_isSome, AList.lookup_insert]
      rfl

-- Induction on the rules still to come.  When a rule is respawned, its new socket can only be
-- held by a rule later in the list: earlier ones hold their own new sockets, which differ.
theorem all_online_iff (henv : Cooperative env) (rules : List Rule) (supervisor : Supervisor)
    (hl4 : ∀ rule ∈ rules, rule.protocol ≠ .https)
    (hnames : (rules.map Rule.name).Nodup)
    (hclaims : (rules.map (fun rule => (rule.withBindOverride defaultBind).claim)).Nodup)
    (hhttps : ∀ rule ∈ rules,
      (rule.withBindOverride defaultBind).claim ∉ supervisor.https)
    (hothers : ∀ name proxy, name ∉ rules.map Rule.name →
      supervisor.active.lookup name = some proxy →
        ∀ rule ∈ rules, proxy.claim ≠ (rule.withBindOverride defaultBind).claim) :
    (∀ rule ∈ rules,
        rule.name ∈ (rules.foldl (respawn defaultBind env) supervisor).active) ↔
      Uncrossed defaultBind supervisor rules := by
  induction rules generalizing supervisor with
  | nil => simp [Uncrossed]
  | cons first rest ih =>
      rw [List.map_cons, List.nodup_cons] at hnames hclaims
      have hne : ∀ later ∈ rest, later.name ≠ first.name := by
        intro later hlater heq
        exact hnames.1 (heq ▸ List.mem_map_of_mem hlater)
      have hfirst : first.name ∈ (supervisor.respawn defaultBind env first).active ↔
          ∀ later ∈ rest, ∀ proxy, supervisor.active.lookup later.name = some proxy →
            proxy.claim ≠ (first.withBindOverride defaultBind).claim := by
        rw [online_iff henv (hl4 first List.mem_cons_self) (hhttps first List.mem_cons_self)]
        constructor
        · intro hfree later hlater proxy hlookup
          exact hfree later.name proxy (hne later hlater) hlookup
        · intro hfree name proxy hname hlookup
          by_cases hrest : name ∈ rest.map Rule.name
          · obtain ⟨later, hlater, rfl⟩ := List.mem_map.1 hrest
            exact hfree later hlater proxy hlookup
          · exact hothers name proxy (by simp [hname, hrest]) hlookup first
              List.mem_cons_self
      have hrest : (∀ rule ∈ rest, rule.name ∈ (rest.foldl (respawn defaultBind env)
            (supervisor.respawn defaultBind env first)).active) ↔
          Uncrossed defaultBind supervisor rest := by
        rw [ih (supervisor.respawn defaultBind env first)
          (fun rule hrule => hl4 rule (List.mem_cons_of_mem _ hrule)) hnames.2 hclaims.2
          (fun rule hrule => by
            rw [https_respawn]
            exact hhttps rule (List.mem_cons_of_mem _ hrule))]
        · apply List.Pairwise.iff_of_mem
          intro earlier later _ hlater
          rw [lookup_respawn_ne _ (hne later hlater)]
        · intro name proxy hname hlookup rule hrule
          by_cases heq : name = first.name
          · rw [heq] at hlookup
            have hbound := rule_of_lookup_respawn hlookup
            intro hclaim
            apply hclaims.1
            rw [← hbound]
            exact List.mem_map.2 ⟨rule, hrule, hclaim.symm⟩
          · rw [lookup_respawn_ne _ heq] at hlookup
            exact hothers name proxy (by simp [heq, hname]) hlookup rule
              (List.mem_cons_of_mem _ hrule)
      have hkept : first.name ∈ ((first :: rest).foldl (respawn defaultBind env)
            supervisor).active ↔
          first.name ∈ (supervisor.respawn defaultBind env first).active := by
        rw [← AList.lookup_isSome, ← AList.lookup_isSome, List.foldl_cons,
          lookup_foldl_respawn_ne _ _ _ hnames.1]
      rw [List.forall_mem_cons, hkept, hfirst, List.foldl_cons, hrest]
      unfold Uncrossed
      rw [List.pairwise_cons]

/-! ## One call -/

def touched (old new : RuleSet) : List Rule :=
  (old.diff new).changed.map RuleChange.new ++ (old.diff new).added

theorem mem_touched {old : RuleSet} :
    rule ∈ touched old new ↔ rule ∈ new.rules ∧ old.find rule.name ≠ some rule := by
  rw [touched, List.mem_append, List.mem_map, RuleSet.mem_added_diff]
  constructor
  · rintro (⟨change, hchange, rfl⟩ | ⟨hrule, hfind⟩)
    · obtain ⟨hrule, hfind, hne⟩ := (RuleSet.mem_changed_diff old new).1 hchange
      refine ⟨hrule, ?_⟩
      rw [hfind]
      exact fun h => hne (Option.some.inj h)
    · refine ⟨hrule, ?_⟩
      rw [hfind]
      exact fun h => by cases h
  · rintro ⟨hrule, hfind⟩
    cases hold : old.find rule.name with
    | none => exact .inr ⟨hrule, rfl⟩
    | some oldRule =>
        refine .inl ⟨⟨oldRule, rule⟩, (RuleSet.mem_changed_diff old new).2 ⟨hrule, hold, ?_⟩, rfl⟩
        intro (hsame : oldRule = rule)
        exact hfind (hold.trans (congrArg some hsame))

theorem nodup_map_touched {κ : Type} (key : Rule → κ) (old : RuleSet)
    (hnodup : (new.rules.map key).Nodup) : ((touched old new).map key).Nodup := by
  rw [touched, RuleSet.map_new_changed_diff, RuleSet.added_diff]
  apply nodup_map_filter_append key hnodup
  intro rule hchanged
  obtain ⟨change, hchange⟩ := Option.isSome_iff_exists.1 hchanged
  rw [RuleSet.isAdded, (RuleSet.changeOf_eq_some.1 hchange).2.1]
  rfl

def Tracks (defaultBind : Option IpAddr) (supervisor : Supervisor) : Prop :=
  ∀ name proxy, supervisor.active.lookup name = some proxy →
    ∃ rule, supervisor.currentSet.find name = some rule ∧
      proxy.rule = rule.withBindOverride defaultBind

theorem foldl_bringOnline_eq {rules : List Rule} (supervisor : Supervisor)
    (hnames : (rules.map Rule.name).Nodup)
    (habsent : ∀ rule ∈ rules, supervisor.active.lookup rule.name = none) :
    rules.foldl (bringOnline defaultBind env) supervisor =
      rules.foldl (respawn defaultBind env) supervisor := by
  induction rules generalizing supervisor with
  | nil => rfl
  | cons first rest ih =>
      rw [List.map_cons, List.nodup_cons] at hnames
      have hstop : supervisor.stop first.name = supervisor := by
        have hkeys : first.name ∉ supervisor.active := by
          rw [← AList.lookup_eq_none]
          exact habsent first List.mem_cons_self
        have herase : supervisor.active.erase first.name = supervisor.active :=
          AList.ext (List.kerase_of_notMem_keys hkeys)
        rw [stop, herase]
      have hrespawn : supervisor.bringOnline defaultBind env first =
          supervisor.respawn defaultBind env first := by
        rw [respawn, hstop]
      rw [List.foldl_cons, List.foldl_cons, hrespawn]
      apply ih _ hnames.2
      intro rule hrule
      rw [lookup_respawn_ne]
      · exact habsent rule (List.mem_cons_of_mem _ hrule)
      · intro hname
        exact hnames.1 (hname ▸ List.mem_map_of_mem hrule)

def stopRemoved (supervisor : Supervisor) (newSet : RuleSet) : Supervisor :=
  { supervisor with
    active := eraseAll ((supervisor.currentSet.diff newSet).removed.map Rule.name)
      supervisor.active }

theorem lookup_stopRemoved (htracks : Tracks defaultBind supervisor) (newSet : RuleSet)
    (name : String) :
    (supervisor.stopRemoved newSet).active.lookup name =
      if (newSet.find name).isSome then supervisor.active.lookup name else none := by
  rw [stopRemoved, lookup_eraseAll]
  cases hlookup : supervisor.active.lookup name with
  | none => simp
  | some proxy =>
      obtain ⟨rule, hfind, -⟩ := htracks name proxy hlookup
      obtain ⟨hold, rfl⟩ := supervisor.currentSet.find_eq_some_iff.1 hfind
      have hremoved : rule.name ∈ (supervisor.currentSet.diff newSet).removed.map Rule.name ↔
          newSet.find rule.name = none := by
        constructor
        · intro hmem
          obtain ⟨other, hother, hname⟩ := List.mem_map.1 hmem
          rw [← hname]
          exact ((RuleSet.mem_removed_diff _ _).1 hother).2
        · intro hnone
          exact List.mem_map_of_mem ((RuleSet.mem_removed_diff _ _).2 ⟨hold, hnone⟩)
      cases hnew : newSet.find rule.name with
      | none => rw [if_pos (hremoved.2 hnew)]; rfl
      | some newRule =>
          rw [if_neg (by rw [hremoved, hnew]; exact fun h => by cases h)]
          rfl

theorem applyUpdate_eq (htracks : Tracks defaultBind supervisor) (newSet : RuleSet) :
    supervisor.applyUpdate defaultBind env (supervisor.currentSet.diff newSet) =
      (touched supervisor.currentSet newSet).foldl (respawn defaultBind env)
        (supervisor.stopRemoved newSet) := by
  have hnames := nodup_map_touched Rule.name supervisor.currentSet newSet.names_nodup
  rw [touched, List.map_append, List.nodup_append] at hnames
  rw [applyUpdate, touched, List.foldl_append, List.foldl_map]
  have hswap : (supervisor.currentSet.diff newSet).changed.foldl (swap defaultBind env)
        (supervisor.stopRemoved newSet) =
      (supervisor.currentSet.diff newSet).changed.foldl
        (fun s change => s.respawn defaultBind env change.new)
        (supervisor.stopRemoved newSet) := by
    apply List.foldl_ext
    intro s change hchange
    obtain ⟨-, hfind, -⟩ := (RuleSet.mem_changed_diff _ _).1 hchange
    rw [swap, respawn, (supervisor.currentSet.find_eq_some_iff.1 hfind).2]
  change List.foldl _ (List.foldl _ (supervisor.stopRemoved newSet) _) _ = _
  rw [hswap]
  apply foldl_bringOnline_eq _ hnames.2.1
  intro rule hrule
  rw [← List.foldl_map (f := RuleChange.new) (g := respawn defaultBind env),
    lookup_foldl_respawn_ne]
  · rw [lookup_stopRemoved htracks]
    cases hlookup : supervisor.active.lookup rule.name with
    | none => simp
    | some proxy =>
        obtain ⟨old, hfind, -⟩ := htracks rule.name proxy hlookup
        rw [((RuleSet.mem_added_diff _ _).1 hrule).2] at hfind
        cases hfind
  · intro hmem
    exact hnames.2.2 _ hmem _ (List.mem_map_of_mem hrule) rfl

theorem active_applySet (htracks : Tracks defaultBind supervisor) (newSet : RuleSet) :
    (supervisor.applySet defaultBind env newSet).active =
      ((touched supervisor.currentSet newSet).foldl (respawn defaultBind env)
        (supervisor.stopRemoved newSet)).active := by
  rw [← applyUpdate_eq htracks]
  rfl

theorem mem_map_name_touched {old : RuleSet} (hrule : rule ∈ new.rules) :
    rule.name ∈ (touched old new).map Rule.name ↔ rule ∈ touched old new := by
  constructor
  · intro hmem
    obtain ⟨other, hother, hname⟩ := List.mem_map.1 hmem
    have hsame : other = rule :=
      List.inj_on_of_nodup_map new.names_nodup (mem_touched.1 hother).1 hrule hname
    exact hsame ▸ hother
  · exact fun hmem => List.mem_map_of_mem hmem

theorem lookup_applySet_of_unchanged (htracks : Tracks defaultBind supervisor)
    (hrule : rule ∈ newSet.rules) (hsame : supervisor.currentSet.find rule.name = some rule) :
    (supervisor.applySet defaultBind env newSet).active.lookup rule.name =
      supervisor.active.lookup rule.name := by
  rw [active_applySet htracks, lookup_foldl_respawn_ne, lookup_stopRemoved htracks,
    newSet.find_of_mem hrule]
  · rfl
  · rw [mem_map_name_touched hrule]
    exact fun hmem => (mem_touched.1 hmem).2 hsame

theorem lookup_applySet_of_absent (htracks : Tracks defaultBind supervisor)
    (habsent : newSet.find name = none) :
    (supervisor.applySet defaultBind env newSet).active.lookup name = none := by
  rw [active_applySet htracks, lookup_foldl_respawn_ne, lookup_stopRemoved htracks, habsent]
  · rfl
  · intro hmem
    obtain ⟨rule, hrule, rfl⟩ := List.mem_map.1 hmem
    rw [newSet.find_of_mem (mem_touched.1 hrule).1] at habsent
    cases habsent

theorem rule_of_lookup_applySet (htracks : Tracks defaultBind supervisor)
    (hrule : rule ∈ newSet.rules)
    (hlookup : (supervisor.applySet defaultBind env newSet).active.lookup rule.name =
      some proxy) : proxy.rule = rule.withBindOverride defaultBind := by
  by_cases hsame : supervisor.currentSet.find rule.name = some rule
  · rw [lookup_applySet_of_unchanged htracks hrule hsame] at hlookup
    obtain ⟨old, hfind, hbound⟩ := htracks rule.name proxy hlookup
    rw [hsame] at hfind
    rw [hbound, ← Option.some.inj hfind]
  · rw [active_applySet htracks] at hlookup
    exact rule_of_lookup_foldl_respawn _ _
      (nodup_map_touched Rule.name _ newSet.names_nodup) _ (mem_touched.2 ⟨hrule, hsame⟩)
      hlookup

theorem Tracks.applySet (htracks : Tracks defaultBind supervisor) (newSet : RuleSet) :
    Tracks defaultBind (supervisor.applySet defaultBind env newSet) := by
  intro name proxy hlookup
  cases hfind : newSet.find name with
  | none =>
      rw [lookup_applySet_of_absent htracks hfind] at hlookup
      cases hlookup
  | some rule =>
      obtain ⟨hrule, rfl⟩ := newSet.find_eq_some_iff.1 hfind
      exact ⟨rule, hfind, rule_of_lookup_applySet htracks hrule hlookup⟩

theorem tracks_of_run {calls : List (Surroundings × RuleSet)}
    (hrun : run (step defaultBind) start calls = some supervisor) :
    Tracks defaultBind supervisor := by
  refine run_invariant (step defaultBind) (P := Tracks defaultBind) ?_ ?_ hrun
  · intro state call next htracks hstep
    rw [← Option.some.inj hstep]
    exact htracks.applySet call.2
  · intro name proxy hlookup
    cases hlookup

/-! ## Convergence -/

def Converged (defaultBind : Option IpAddr) (supervisor : Supervisor) (set : RuleSet) : Prop :=
  ∀ name, (supervisor.active.lookup name).map ActiveProxy.localAddr =
    (set.find name).map (fun rule => (rule.withBindOverride defaultBind).listen)

/--
Every unchanged rule is running, and no changed rule moves to a socket that a
changed rule swapped after it still holds.
-/
def Ready (defaultBind : Option IpAddr) (supervisor : Supervisor) (newSet : RuleSet) : Prop :=
  (∀ name ∈ (supervisor.currentSet.diff newSet).unchanged, name ∈ supervisor.active) ∧
    (supervisor.currentSet.diff newSet).changed.Pairwise (fun earlier later => ∀ proxy,
      supervisor.active.lookup later.old.name = some proxy →
        proxy.claim ≠ (earlier.new.withBindOverride defaultBind).claim)

theorem converged_applySet_iff (htracks : Tracks defaultBind supervisor) (newSet : RuleSet) :
    Converged defaultBind (supervisor.applySet defaultBind env newSet) newSet ↔
      ∀ rule ∈ newSet.rules,
        rule.name ∈ (supervisor.applySet defaultBind env newSet).active := by
  constructor
  · intro hconverged rule hrule
    have h := hconverged rule.name
    rw [newSet.find_of_mem hrule] at h
    obtain ⟨proxy, hlookup, -⟩ := Option.map_eq_some_iff.1 h
    rw [← AList.lookup_isSome, hlookup]
    rfl
  · intro hrunning name
    cases hfind : newSet.find name with
    | none => rw [lookup_applySet_of_absent htracks hfind]; rfl
    | some rule =>
        obtain ⟨hrule, rfl⟩ := newSet.find_eq_some_iff.1 hfind
        obtain ⟨proxy, hlookup⟩ :=
          Option.isSome_iff_exists.1 (AList.lookup_isSome.2 (hrunning rule hrule))
        rw [hlookup, Option.map_some, Option.map_some, ActiveProxy.localAddr,
          rule_of_lookup_applySet htracks hrule hlookup]

theorem claim_ne_of_untouched (htracks : Tracks defaultBind supervisor) (hclaims : (newSet.rules.map
      (fun rule => (rule.withBindOverride defaultBind).claim)).Nodup)
    (hname : name ∉ (touched supervisor.currentSet newSet).map Rule.name)
    (hlookup : (supervisor.stopRemoved newSet).active.lookup name = some proxy)
    (hrule : rule ∈ touched supervisor.currentSet newSet) :
    proxy.claim ≠ (rule.withBindOverride defaultBind).claim := by
  rw [lookup_stopRemoved htracks] at hlookup
  cases hfind : newSet.find name with
  | none => simp [hfind] at hlookup
  | some kept =>
      obtain ⟨hkept, rfl⟩ := newSet.find_eq_some_iff.1 hfind
      have hold : supervisor.currentSet.find kept.name = some kept := by
        by_contra hne
        exact hname (List.mem_map_of_mem (mem_touched.2 ⟨hkept, hne⟩))
      rw [hfind, Option.isSome_some, if_pos rfl] at hlookup
      obtain ⟨old, hfound, hbound⟩ := htracks kept.name proxy hlookup
      rw [hold] at hfound
      rw [← Option.some.inj hfound] at hbound
      intro hclaim
      have hsame : kept = rule := by
        apply List.inj_on_of_nodup_map hclaims hkept (mem_touched.1 hrule).1
        rw [← hbound]
        exact hclaim
      rw [hsame] at hname
      exact hname (List.mem_map_of_mem hrule)

theorem uncrossed_touched_iff (htracks : Tracks defaultBind supervisor) (newSet : RuleSet) :
    Uncrossed defaultBind (supervisor.stopRemoved newSet)
        (touched supervisor.currentSet newSet) ↔
      (supervisor.currentSet.diff newSet).changed.Pairwise (fun earlier later => ∀ proxy,
        supervisor.active.lookup later.old.name = some proxy →
          proxy.claim ≠ (earlier.new.withBindOverride defaultBind).claim) := by
  have hadded : ∀ rule ∈ (supervisor.currentSet.diff newSet).added,
      (supervisor.stopRemoved newSet).active.lookup rule.name = none := by
    intro rule hrule
    rw [lookup_stopRemoved htracks]
    cases hlookup : supervisor.active.lookup rule.name with
    | none => simp
    | some proxy =>
        obtain ⟨old, hfind, -⟩ := htracks rule.name proxy hlookup
        rw [((RuleSet.mem_added_diff _ _).1 hrule).2] at hfind
        cases hfind
  have hchanged : ∀ change ∈ (supervisor.currentSet.diff newSet).changed,
      (supervisor.stopRemoved newSet).active.lookup change.new.name =
        supervisor.active.lookup change.old.name := by
    intro change hchange
    obtain ⟨hrule, hfind, -⟩ := (RuleSet.mem_changed_diff _ _).1 hchange
    rw [lookup_stopRemoved htracks, newSet.find_of_mem hrule,
      (supervisor.currentSet.find_eq_some_iff.1 hfind).2]
    rfl
  unfold Uncrossed touched
  rw [List.pairwise_append, List.pairwise_map]
  constructor
  · rintro ⟨h, -, -⟩
    refine h.imp_of_mem ?_
    intro earlier later _ hlater hfree
    rwa [hchanged later hlater] at hfree
  · intro h
    refine ⟨h.imp_of_mem ?_, ?_, ?_⟩
    · intro earlier later _ hlater hfree
      rwa [hchanged later hlater]
    · apply List.pairwise_of_forall_mem_list
      intro earlier _ later hlater proxy hlookup
      rw [hadded later hlater] at hlookup
      cases hlookup
    · intro earlier _ later hlater proxy hlookup
      rw [hadded later hlater] at hlookup
      cases hlookup

/--
From every reachable state, in cooperative surroundings, applying a set whose
sockets are distinct and not held by the HTTPS side leaves exactly its rules
running exactly when the state is ready for it.
-/
theorem applySet_converges_iff {calls : List (Surroundings × RuleSet)}
    (hrun : run (step defaultBind) start calls = some supervisor) (henv : Cooperative env)
    (newSet : RuleSet)
    (hclaims : (newSet.rules.map
      (fun rule => (rule.withBindOverride defaultBind).claim)).Nodup)
    (hhttps : ∀ rule ∈ newSet.rules,
      (rule.withBindOverride defaultBind).claim ∉ supervisor.https) :
    Converged defaultBind (supervisor.applySet defaultBind env newSet) newSet ↔
      Ready defaultBind supervisor newSet := by
  have htracks := tracks_of_run hrun
  have honline := all_online_iff henv (touched supervisor.currentSet newSet)
    (supervisor.stopRemoved newSet)
    (fun rule hrule => (newSet.bindable rule (mem_touched.1 hrule).1).1)
    (nodup_map_touched Rule.name _ newSet.names_nodup)
    (nodup_map_touched _ _ hclaims)
    (fun rule hrule => hhttps rule (mem_touched.1 hrule).1)
    (fun name proxy hname hlookup rule hrule =>
      claim_ne_of_untouched htracks hclaims hname hlookup hrule)
  rw [converged_applySet_iff htracks, Ready, ← uncrossed_touched_iff htracks, ← honline,
    ← active_applySet htracks]
  constructor
  · intro hrunning
    refine ⟨?_, fun rule hrule => hrunning rule (mem_touched.1 hrule).1⟩
    intro name hname
    obtain ⟨rule, hrule, rfl, hsame⟩ := (RuleSet.mem_unchanged_diff _ _).1 hname
    rw [← AList.lookup_isSome, ← lookup_applySet_of_unchanged htracks hrule hsame,
      AList.lookup_isSome]
    exact hrunning rule hrule
  · rintro ⟨hunchanged, htouched⟩ rule hrule
    by_cases hsame : supervisor.currentSet.find rule.name = some rule
    · rw [← AList.lookup_isSome, lookup_applySet_of_unchanged htracks hrule hsame,
        AList.lookup_isSome]
      exact hunchanged _ ((RuleSet.mem_unchanged_diff _ _).2 ⟨rule, hrule, rfl, hsame⟩)
    · exact htouched rule (mem_touched.2 ⟨hrule, hsame⟩)

def obliging : Surroundings := ⟨fun _ => true, fun held claim => claim ∉ held, fun held _ => held⟩

theorem cooperative_obliging : Cooperative obliging :=
  ⟨fun _ => rfl, fun held claim => by simp [obliging]⟩

def toyRule (name : String) (port : UInt16) : Rule :=
  ⟨name, ⟨.v4 1, port⟩, .tcp, some 1, none, none, none⟩

def straightSet : RuleSet :=
  ⟨[toyRule "a" 1, toyRule "b" 2], [], by decide, by decide, by decide⟩

def crossedSet : RuleSet :=
  ⟨[toyRule "a" 2, toyRule "b" 1], [], by decide, by decide, by decide⟩

def shiftedSet : RuleSet :=
  ⟨[toyRule "a" 3, toyRule "b" 1], [], by decide, by decide, by decide⟩

/-- Two rules exchange their ports: the first stays offline, also when the set is applied again. -/
theorem crossed_ports_stay_offline :
    ∃ supervisor, run (step none) start [(obliging, straightSet)] = some supervisor ∧
      supervisor.https = [] ∧ Cooperative obliging ∧
      ¬ Converged none (supervisor.applySet none obliging crossedSet) crossedSet ∧
      ¬ Converged none ((supervisor.applySet none obliging crossedSet).applySet none obliging
        crossedSet) crossedSet := by
  refine ⟨start.applySet none obliging straightSet, rfl, rfl, cooperative_obliging, ?_, ?_⟩
  · intro hconverged
    exact absurd (hconverged "a") (by decide)
  · intro hconverged
    exact absurd (hconverged "a") (by decide)

theorem applySet_converges_iff_toy :
    ∃ supervisor, run (step none) start [(obliging, straightSet)] = some supervisor ∧
      Converged none (supervisor.applySet none obliging shiftedSet) shiftedSet := by
  have hrun : run (step none) start [(obliging, straightSet)] =
      some (start.applySet none obliging straightSet) := rfl
  refine ⟨_, hrun, (applySet_converges_iff hrun cooperative_obliging shiftedSet
    (by decide) (by decide)).2 ⟨by decide, ?_⟩⟩
  have hchanged : ((start.applySet none obliging straightSet).currentSet.diff
      shiftedSet).changed =
      [⟨toyRule "a" 1, toyRule "a" 3⟩, ⟨toyRule "b" 2, toyRule "b" 1⟩] := by decide
  rw [hchanged]
  apply List.Pairwise.cons
  · intro later hlater proxy hlookup
    obtain rfl := List.mem_singleton.1 hlater
    obtain rfl : proxy = ⟨toyRule "b" 2, 1⟩ := by
      apply Option.some.inj
      rw [← hlookup]
      decide
    decide
  · exact List.pairwise_singleton _ _

end Supervisor

end Yggdrasil.Proxy
