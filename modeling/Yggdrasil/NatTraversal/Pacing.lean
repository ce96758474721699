import Yggdrasil.NatTraversal.Convergence
import Yggdrasil.NatTraversal.Correlation

/-!
# How often the gateway is asked

A mapper that backs off asks again at growing intervals, and one that renews
sleeps until a mapping is due.  Both depend on the counter of failed requests:
it is set to zero when a probe begins and whenever a request is granted, and
three failures in a row put the mapper into backoff.
-/

namespace Yggdrasil.NatTraversal

open Foundation Ratatoskr

namespace Reconciler

variable {world : World}

def failingTransiently : LogEntry → Bool
  | .call _ outcome => (callError outcome).any RpcError.isTransient
  | _ => true

structure Probing (base : Reconciler) (failures : Nat) (r : Reconciler) : Prop where
  params : r.params = base.params
  mappings : r.mappings = ∅
  backoffAttempt : r.backoffAttempt = base.backoffAttempt
  consecutiveErrors : r.consecutiveErrors = min failures (2 ^ 32 - 1)
  state : r.state = if errorThresholdToBackoff ≤ failures then .backoff else .discovering

variable {base r next : Reconciler} {failures : Nat} {rules : RuleSet} {passes : List RuleSet}

theorem Probing.congr {r' : Reconciler} (h : Probing base failures r)
    (hparams : r'.params = r.params) (hmappings : r'.mappings = r.mappings)
    (hattempt : r'.backoffAttempt = r.backoffAttempt)
    (herrors : r'.consecutiveErrors = r.consecutiveErrors) (hstate : r'.state = r.state) :
    Probing base failures r' :=
  ⟨hparams.trans h.params, hmappings.trans h.mappings, hattempt.trans h.backoffAttempt,
    herrors.trans h.consecutiveErrors, hstate.trans h.state⟩

theorem probing_clearTable (r : Reconciler) : Probing r 0 r.clearTable :=
  ⟨rfl, rfl, rfl, rfl, rfl⟩

theorem probing_sendMapRequest {target : MappingTarget} (h : Probing base failures r)
    (hlogged : Logged failingTransiently r (r.sendMapRequest world target)) :
    Probing base (failures + 1) (r.sendMapRequest world target) := by
  have hrequested := requested_sendMapRequest world r target
  generalize r.sendMapRequest world target = sent at hrequested hlogged ⊢
  cases hrequested with
  | @granted asked proto nonce ack epoch response earlier _ _ _ _ hsuffix hlog _ hgranted =>
      obtain ⟨later, hlater⟩ := log_established world asked proto target nonce ack epoch
      rw [hlog] at hlater
      have hfails := hlogged.of_entry hlater hsuffix
      rw [failingTransiently, callError, hgranted] at hfails
      cases hfails
  | @failed asked error _ hasked hrefused =>
      have htransient : error.isTransient = true := by
        rcases hrefused.of_logged hlogged with ⟨rfl, -⟩ | ⟨request, outcome, hfails, herror⟩
        · rfl
        · rw [failingTransiently, herror] at hfails
          exact hfails
      obtain ⟨nonces, drawn, calls, -, rfl⟩ := hasked
      rw [failed_eq]
      refine ⟨h.params, ?_, h.backoffAttempt, ?_, ?_⟩
      · dsimp only
        rw [if_pos htransient]
        exact h.mappings
      · dsimp only
        rw [h.consecutiveErrors]
        omega
      · have hcount : errorThresholdToBackoff ≤ min (min failures (2 ^ 32 - 1) + 1) (2 ^ 32 - 1) ↔
            errorThresholdToBackoff ≤ failures + 1 := by
          unfold errorThresholdToBackoff
          omega
        dsimp only
        rw [h.consecutiveErrors, h.state]
        by_cases hreached : errorThresholdToBackoff ≤ failures + 1
        · rw [if_pos (hcount.2 hreached), if_pos hreached]
        · rw [if_neg (mt hcount.1 hreached), if_neg hreached,
            if_neg (fun hbefore => hreached (hbefore.trans (Nat.le_succ failures)))]

theorem probing_foldl (targets : List MappingTarget) (h : Probing base failures r)
    (hlogged : Logged failingTransiently r (targets.foldl (sendMapRequest world) r)) :
    Probing base (failures + targets.length) (targets.foldl (sendMapRequest world) r) := by
  induction targets generalizing r failures with
  | nil => exact h
  | cons target rest ih =>
      obtain ⟨hfirst, hrest⟩ := hlogged.split (acts_sendMapRequest world r target).log_suffix
        (Acts.foldl (acts_sendMapRequest world) rest _).log_suffix
      have hnext := ih (probing_sendMapRequest h hfirst) hrest
      rw [List.length_cons, Nat.add_comm rest.length, ← Nat.add_assoc]
      exact hnext

/-! The two halves of a probe: the table is requested again, then the targets. -/

theorem length_targets (r : Reconciler) :
    (r.targets world).length = r.mappings.entries.length := by
  rw [targets, (world.targetOrder_perm _ _).length_eq, List.length_map]

theorem probing_rebuildTable (hlogged : Logged failingTransiently r (r.rebuildTable world)) :
    Probing r r.mappings.entries.length (r.rebuildTable world) := by
  have hclear : r.log <:+ r.clearTable.log := List.suffix_cons _ _
  have hacts := Acts.foldl (acts_sendMapRequest world) (r.targets world) r.clearTable
  have hrebuilt : ((r.targets world).foldl (sendMapRequest world) r.clearTable).log <:+
      (r.rebuildTable world).log := List.suffix_cons _ _
  have hrequests := ((hlogged.split hclear (hacts.log_suffix.trans hrebuilt)).2.split
    hacts.log_suffix hrebuilt).1
  have hprobing := probing_foldl _ (probing_clearTable r) hrequests
  rw [Nat.zero_add, length_targets] at hprobing
  exact hprobing.congr rfl rfl rfl rfl rfl

def wantedKeys (r : Reconciler) (rules : RuleSet) : Nat :=
  ((r.desiredTargets rules).map MappingTarget.key).dedup.length

theorem length_missing_of_empty (hempty : r.mappings = ∅) (opened : Reconciler)
    (hparams : opened.params = r.params) :
    (r.missing (opened.desiredTable world rules)).length = r.wantedKeys rules := by
  have hkeys : ∀ key, key ∈ (opened.desiredTable world rules).keys ↔
      key ∈ ((r.desiredTargets rules).map MappingTarget.key).dedup := by
    intro key
    rw [← AList.mem_keys, mem_desiredTable, List.mem_dedup, desiredTargets, hparams]
    rfl
  have hperm := (List.perm_ext_iff_of_nodup (opened.desiredTable world rules).keys_nodup
    (List.nodup_dedup _)).2 hkeys
  have hall : (opened.desiredTable world rules).entries.filter
      (fun entry => entry.1 ∉ r.mappings) = (opened.desiredTable world rules).entries := by
    rw [hempty, List.filter_eq_self]
    intro entry _
    exact decide_eq_true (AList.notMem_empty entry.1)
  rw [missing, hall, List.length_map, wantedKeys, ← hperm.length_eq, AList.keys, List.keys,
    List.length_map]

variable (world) in
theorem dropUnwanted_of_empty (hempty : r.mappings = ∅) (desired : TargetTable) :
    r.dropUnwanted world desired = { r with drawn := r.drawn + 1 } := by
  have hnone : world.keyOrder r.drawn (r.mappings.keys.filter (fun key => key ∉ desired)) = [] := by
    rw [← List.perm_nil]
    refine (world.keyOrder_perm _ _).trans ?_
    rw [hempty]
    exact .refl []
  rw [dropUnwanted, hnone]
  rfl

theorem probing_reconcileTargets {opened : Reconciler} (h : Probing base failures r)
    (hopened : r.ensureRpcSocket world = (.ok (), opened))
    (hlogged : Logged failingTransiently r (reconcileTargets world rules r)) :
    Probing base (failures + base.wantedKeys rules) (reconcileTargets world rules r) := by
  rw [reconcileTargets_of_opened hopened] at hlogged ⊢
  obtain ⟨drawn, rfl⟩ := ensureRpcSocket_opened hopened
  set opened : Reconciler := { r with rpcSocket := true, drawn := drawn }
  have hdropped := dropUnwanted_of_empty world (r := opened) h.mappings
    (opened.desiredTable world rules)
  rw [hdropped] at hlogged ⊢
  set ready : Reconciler := { opened with drawn := opened.drawn + 1 }
  have hready : Probing base failures ready := h.congr rfl rfl rfl rfl rfl
  have hcount : (ready.missing (opened.desiredTable world rules)).length =
      base.wantedKeys rules := by
    rw [length_missing_of_empty hready.mappings opened rfl, wantedKeys, wantedKeys,
      desiredTargets, hready.params]
    rfl
  have hrequests := probing_foldl
    (world.targetOrder ready.drawn (ready.missing (opened.desiredTable world rules)))
    (r := { ready with drawn := ready.drawn + 1 }) (hready.congr rfl rfl rfl rfl rfl) hlogged
  rw [(world.targetOrder_perm _ _).length_eq, hcount] at hrequests
  exact hrequests

/-- The wait before the next probe has advanced by one step of the schedule. -/
structure Escalates (r probed : Reconciler) : Prop where
  state : probed.state = .backoff
  backoffAttempt : probed.backoffAttempt = min (r.backoffAttempt + 1) (backoffSchedule.length - 1)
  wait : ∀ now, r.computeNextTick now ≤ probed.computeNextTick now

theorem backoffSchedule_mono (attempt : Nat) :
    backoffSchedule.getD attempt 900000 ≤
      backoffSchedule.getD (min (attempt + 1) (backoffSchedule.length - 1)) 900000 := by
  match attempt with
  | 0 | 1 | 2 => decide
  | attempt + 3 =>
      have hlast : min (attempt + 3 + 1) (backoffSchedule.length - 1) = 3 := by
        simp only [backoffSchedule, List.length_cons, List.length_nil]
        omega
      rw [hlast]
      cases attempt with
      | zero => decide
      | succ attempt => exact le_rfl

theorem log_backoffProbe (rules : RuleSet) (r : Reconciler) :
    (backoffProbe world rules r).log =
      (reconcileTargets world rules (r.rebuildTable world)).log := by
  unfold backoffProbe
  dsimp only
  split
  · rfl
  · rfl

theorem escalates_backoffProbe_iff (hstate : r.state = .backoff)
    (hattempt : (reconcileTargets world rules (r.rebuildTable world)).backoffAttempt =
      r.backoffAttempt) :
    Escalates r (backoffProbe world rules r) ↔
      (reconcileTargets world rules (r.rebuildTable world)).state = .backoff := by
  set probed := reconcileTargets world rules (r.rebuildTable world) with hprobed
  have hprobe : backoffProbe world rules r =
      if probed.state = .backoff then
        { probed with
          backoffAttempt := min (probed.backoffAttempt + 1) (backoffSchedule.length - 1) }
      else { probed with backoffAttempt := 0 } := rfl
  rw [hprobe]
  by_cases hended : probed.state = .backoff
  · rw [if_pos hended]
    refine iff_of_true ⟨hended, by rw [hattempt], fun now => ?_⟩ hended
    simp only [computeNextTick, hstate, hended, hattempt]
    exact Nat.add_le_add_left (backoffSchedule_mono r.backoffAttempt) now
  · rw [if_neg hended]
    exact iff_of_false (fun h => hended h.state) hended

theorem backoff_escalates_iff (world : World) (rules : RuleSet) (r : Reconciler)
    (hstate : r.state = .backoff)
    (hlogged : Logged failingTransiently r (backoffProbe world rules r)) :
    Escalates r (backoffProbe world rules r) ↔
      (∃ message, ((r.rebuildTable world).ensureRpcSocket world).1 = .error message) ∨
        errorThresholdToBackoff ≤ r.mappings.entries.length + r.wantedKeys rules := by
  have hsplit : Logged failingTransiently r (r.rebuildTable world) ∧
      Logged failingTransiently (r.rebuildTable world)
        (reconcileTargets world rules (r.rebuildTable world)) := by
    obtain ⟨recent, hrecent, hall⟩ := hlogged
    rw [log_backoffProbe] at hrecent
    exact Logged.split ⟨recent, hrecent, hall⟩ (log_suffix_rebuildTable world r)
      (acts_reconcileTargets world rules _).log_suffix
  have hprobing := probing_rebuildTable hsplit.1
  cases hensure : (r.rebuildTable world).ensureRpcSocket world with
  | mk outcome opened =>
      cases outcome with
      | error message =>
          have hclosed := reconcileTargets_of_error rules hensure
          rw [ensureRpcSocket_error hensure] at hclosed
          rw [escalates_backoffProbe_iff hstate (by rw [hclosed]; exact hprobing.backoffAttempt),
            hclosed]
          exact iff_of_true rfl (.inl ⟨message, rfl⟩)
      | ok _ =>
          have hreconciled := probing_reconcileTargets hprobing hensure hsplit.2
          rw [escalates_backoffProbe_iff hstate hreconciled.backoffAttempt, hreconciled.state]
          have hopen : ¬ ∃ message, (Except.ok () : Except String Unit) = .error message := by
            rintro ⟨message, h⟩
            cases h
          rw [or_iff_right hopen]
          split_ifs with hcount
          · exact iff_of_true rfl hcount
          · exact iff_of_false (by simp) hcount

def threeRules : RuleSet where
  rules := [⟨"ssh", ⟨.v4 0xC0A8010A, 22⟩, .tcp, some 22, none, none, none⟩,
    ⟨"http", ⟨.v4 0xC0A8010A, 80⟩, .tcp, some 80, none, none, none⟩,
    ⟨"https", ⟨.v4 0xC0A8010A, 443⟩, .tcp, some 443, none, none, none⟩]
  routes := []
  bindable := by decide
  names_nodup := by decide
  claims_nodup := by decide

/-- Nothing answers a mapper with three targets. -/
theorem backoff_escalates_for_three :
    Escalates { new pcpParams with state := .backoff }
      (backoffProbe silentWorld threeRules { new pcpParams with state := .backoff }) := by
  refine (backoff_escalates_iff silentWorld threeRules { new pcpParams with state := .backoff } rfl
    ⟨_, (List.append_nil _).symm, ?_⟩).2 (.inr ?_)
  · decide
  · decide

/--
One mapping and one target make two failures: the mapper leaves backoff for the
short interval of discovery although nothing has answered.
-/
theorem silent_gateway_ends_backoff :
    ∃ waiting,
      run (step silentWorld) (start silentWorld pcpParams sshRules)
        [.tick sshRules, .tick sshRules, .tick sshRules] = some waiting ∧
      waiting.state = .backoff ∧
      waiting.desiredTargets sshRules = [⟨.tcp, 22, 0xC0A8010A, .rule "ssh"⟩] ∧
      Logged failingTransiently waiting (backoffProbe silentWorld sshRules waiting) ∧
      (backoffProbe silentWorld sshRules waiting).state = .discovering ∧
      waiting.computeNextTick 0 = 30000 ∧
      (backoffProbe silentWorld sshRules waiting).computeNextTick 0 = 2000 := by
  refine ⟨_, rfl, rfl, rfl, ⟨[_, _, _, _], rfl, ?_⟩, rfl, rfl, rfl⟩
  decide

/-! ## Renewals -/

def ungranted : LogEntry → Bool
  | .confirmed _ => false
  | _ => true

def Hurried (world : World) (r : Reconciler) : Prop := r.nextTick ≤ world.clock (r.drawn - 1)

def Rushes (world : World) : List RuleSet → Reconciler → Prop
  | [], _ => True
  | rules :: rest, r =>
      r.state = .active ∧ ∃ next, step world r (.tick rules) = some next ∧
        (rest ≠ [] → Hurried world next) ∧ Rushes world rest next

def Paced (world : World) (r : Reconciler) : Prop :=
  ∀ passes, Rushes world passes r → passes.length ≤ errorThresholdToBackoff

def lifetimeMs : MapResponse → Nat
  | .pcp response => response.assignedLifetime.toNat * 1000
  | .natPmp response => response.assignedLifetime.toNat * 1000

theorem lifetimeMs_of_ack {response : MapResponse} {nonce : Nonce} {ack : MapAck} {epoch : UInt32}
    (h : response.ack nonce = .ok (ack, epoch)) :
    lifetimeMs response = ack.assignedLifetimeSecs.toNat * 1000 := by
  unfold MapResponse.ack at h
  split at h
  · split_ifs at h
    obtain ⟨rfl, -⟩ := Prod.mk.inj (Except.ok.inj h)
    rfl
  · split_ifs at h
    obtain ⟨rfl, -⟩ := Prod.mk.inj (Except.ok.inj h)
    rfl

/-- Half of the lifetime is longer than the span. -/
def outlasting (span : Nat) : LogEntry → Bool
  | .call _ (.ok response) => response.error?.isNone && span < lifetimeMs response / 2
  | .call _ (.error _) => false
  | .epochReset _ => false
  | _ => true

/--
In a pass nothing is granted; or every request is granted half a lifetime that
is longer than the pass, the gateway has not lost its state, and the mappings
that are not due do not fall due before the pass ends.
-/
def Lasting (world : World) (r next : Reconciler) : Prop :=
  Logged ungranted r next ∨
    r.rpcSocket = true ∧
      Logged (outlasting (world.clock (next.drawn - 1) - world.clock r.drawn)) r next ∧
      ∀ key mapping, r.mappings.lookup key = some mapping →
        world.clock (r.drawn + 1) < mapping.renewAt →
          world.clock (next.drawn - 1) < mapping.renewAt

/-- A mapper that is active knows how many requests have failed since the last was granted. -/
def Failing (failures : Nat) (r : Reconciler) : Prop :=
  r.state = .active → failures ≤ r.consecutiveErrors ∧
    (0 < failures → r.consecutiveErrors < errorThresholdToBackoff)

theorem Failing.of_le {fewer : Nat} (h : Failing failures r) (hpos : 0 < fewer)
    (hle : fewer ≤ failures) : Failing fewer r :=
  fun hactive => ⟨hle.trans (h hactive).1, fun _ => (h hactive).2 (hpos.trans_le hle)⟩

theorem failing_sendMapRequest {target : MappingTarget} (h : Failing failures r)
    (hlogged : Logged ungranted r (r.sendMapRequest world target)) :
    Failing (failures + 1) (r.sendMapRequest world target) := by
  have hrequested := requested_sendMapRequest world r target
  generalize r.sendMapRequest world target = sent at hrequested hlogged ⊢
  cases hrequested with
  | @granted asked proto nonce ack epoch response earlier _ hasked =>
      obtain ⟨later, hlater⟩ := log_established world asked proto target nonce ack epoch
      have hentry : (asked.established world proto target nonce ack epoch).log =
          [] ++ .confirmed target.key :: (later ++ asked.log) := hlater
      cases hlogged.of_entry hentry (hasked.log_suffix.trans (List.suffix_append later _))
  | failed _ hasked =>
      obtain ⟨nonces, drawn, calls, -, rfl⟩ := hasked
      rw [failed_eq]
      intro hactive
      dsimp only at hactive ⊢
      split_ifs at hactive with hcount
      obtain ⟨hleast, hmost⟩ := h hactive
      unfold errorThresholdToBackoff at hmost hcount ⊢
      omega

theorem failing_renewOne {key : MappingKey} (h : Failing (failures + 1) r)
    (hlogged : Logged ungranted r (r.renewOne world key)) :
    Failing (failures + 1) (r.renewOne world key) := by
  unfold renewOne at hlogged ⊢
  split at hlogged
  · exact h
  · exact (failing_sendMapRequest h hlogged).of_le (Nat.succ_pos _) (Nat.le_succ _)

theorem failing_foldl_renewOne (keys : List MappingKey) (h : Failing (failures + 1) r)
    (hlogged : Logged ungranted r (keys.foldl (renewOne world) r)) :
    Failing (failures + 1) (keys.foldl (renewOne world) r) := by
  induction keys generalizing r with
  | nil => exact h
  | cons key rest ih =>
      obtain ⟨hfirst, hrest⟩ := hlogged.split (acts_renewOne world r key).log_suffix
        (Acts.foldl (acts_renewOne world) rest _).log_suffix
      exact ih (failing_renewOne h hfirst) hrest

theorem failing_foldl_of_due {keys : List MappingKey} (hdue : keys ≠ [])
    (hheld : ∀ key ∈ keys, key ∈ r.mappings) (h : Failing failures r)
    (hlogged : Logged ungranted r (keys.foldl (renewOne world) r)) :
    Failing (failures + 1) (keys.foldl (renewOne world) r) := by
  obtain ⟨key, rest, rfl⟩ := List.exists_cons_of_ne_nil hdue
  obtain ⟨hfirst, hrest⟩ := hlogged.split (acts_renewOne world r key).log_suffix
    (Acts.foldl (acts_renewOne world) rest _).log_suffix
  refine failing_foldl_renewOne rest ?_ hrest
  obtain ⟨mapping, hmapping⟩ := mem_iff_lookup.1 (hheld key List.mem_cons_self)
  have hrenew : r.renewOne world key = r.sendMapRequest world mapping.target := by
    rw [renewOne, hmapping]
  rw [hrenew] at hfirst ⊢
  exact failing_sendMapRequest h hfirst

def Timed (r : Reconciler) : Prop :=
  r.state = .active → r.mappings.entries ≠ [] →
    ∃ entry ∈ r.mappings.entries, entry.2.renewAt ≤ r.nextTick

theorem timed_awaitEvent (r : Reconciler) : Timed (r.awaitEvent world) := by
  intro hactive hsome
  have hstate : r.state = .active := hactive
  have hnonempty : r.mappings.entries.map (fun entry => entry.2.renewAt) ≠ [] := by
    intro hnil
    exact hsome (List.map_eq_nil_iff.1 hnil)
  obtain ⟨earliest, hearliest⟩ := Option.isSome_iff_exists.1 (List.isSome_min?_of_ne_nil hnonempty)
  obtain ⟨entry, hentry, hrenew⟩ := List.mem_map.1 (List.min?_mem hearliest)
  refine ⟨entry, hentry, ?_⟩
  change entry.2.renewAt ≤ r.computeNextTick (world.clock r.drawn)
  simp only [computeNextTick, hstate, hearliest, Option.getD_some, hrenew, le_refl]

theorem timed_step {event : Event} (hstep : step world r event = some next) :
    next.running = true → Timed next := by
  have hcases := step_cases (P := fun _ => True) (fun _ _ => trivial) (fun _ => trivial) trivial
    hstep
  rcases hcases with ⟨-, passed, rfl⟩ | rfl
  · exact fun _ => timed_awaitEvent passed
  · exact fun hrunning => by cases hrunning

theorem timed_run {params : NatMapperParams} {events : List Event} {reached : Reconciler}
    (hrun : run (step world) (start world params rules) events = some reached) :
    reached.running = true → Timed reached :=
  run_invariant (step world) (P := fun r => r.running = true → Timed r)
    (fun _ _ _ _ hstep => timed_step hstep) (fun _ => timed_awaitEvent _) hrun

theorem step_tick_active (hactive : r.state = .active)
    (hstep : step world r (.tick rules) = some next) :
    r.nextTick ≤ world.clock r.drawn ∧
      next = awaitEvent world (refreshDueMappings world { r with drawn := r.drawn + 1 }) := by
  unfold step at hstep
  split at hstep
  · cases hstep
  · dsimp only at hstep
    split at hstep
    · cases hstep
    · rename_i hdue
      split at hstep
      · rename_i hother
        cases hactive.symm.trans hother
      · exact ⟨Nat.le_of_not_lt hdue, (Option.some.inj hstep).symm⟩
      · rename_i hother
        cases hactive.symm.trans hother
      · cases hstep

theorem refreshDueMappings_of_empty (hempty : r.mappings.entries = []) :
    (r.refreshDueMappings world).mappings.entries = [] := by
  have hnone : world.keyOrder r.drawn
      ((r.mappings.entries.filter (fun entry => entry.2.renewAt ≤ world.clock r.drawn)).map
        Sigma.fst) = [] := by
    rw [← List.perm_nil]
    refine (world.keyOrder_perm _ _).trans ?_
    rw [hempty]
    exact .refl []
  unfold refreshDueMappings
  dsimp only
  rw [hnone]
  exact hempty

theorem failing_pass (htimed : Timed r) (hactive : r.state = .active)
    (hstep : step world r (.tick rules) = some next) (hhurried : Hurried world next)
    (hnext : next.state = .active) (hlogged : Logged ungranted r next)
    (h : Failing failures r) : Failing (failures + 1) next := by
  obtain ⟨htick, rfl⟩ := step_tick_active hactive hstep
  set woken : Reconciler := { r with drawn := r.drawn + 1 }
  have hsome : r.mappings.entries ≠ [] := by
    intro hempty
    have hleft : (woken.refreshDueMappings world).mappings.entries = [] :=
      refreshDueMappings_of_empty hempty
    have hstate : (woken.refreshDueMappings world).state = .active := hnext
    have hearly : (woken.refreshDueMappings world).computeNextTick
        (world.clock (woken.refreshDueMappings world).drawn) ≤
          world.clock (woken.refreshDueMappings world).drawn := hhurried
    simp only [computeNextTick, hstate, hleft, List.map_nil, List.min?_nil, Option.getD_none]
      at hearly
    omega
  obtain ⟨entry, hentry, hrenew⟩ := htimed hactive hsome
  have hlate : entry.2.renewAt ≤ world.clock woken.drawn :=
    (hrenew.trans htick).trans (world.clock_mono (Nat.le_succ r.drawn))
  set due := woken.mappings.entries.filter (fun entry => entry.2.renewAt ≤ world.clock woken.drawn)
  have hperm := world.keyOrder_perm woken.drawn (due.map Sigma.fst)
  have hdue : entry ∈ due := List.mem_filter.2 ⟨hentry, decide_eq_true hlate⟩
  have hkeys : world.keyOrder woken.drawn (due.map Sigma.fst) ≠ [] :=
    List.ne_nil_of_mem (hperm.mem_iff.2 (List.mem_map_of_mem hdue))
  refine failing_foldl_of_due (r := { woken with drawn := woken.drawn + 1 }) hkeys ?_ h hlogged
  intro key hkey
  obtain ⟨other, hother, rfl⟩ := List.mem_map.1 (hperm.mem_iff.1 hkey)
  exact AList.mem_keys.2 (List.mem_map_of_mem (List.mem_filter.1 hother).1)

theorem granting_of_outlasting {span : Nat} (h : Logged (outlasting span) r next) :
    Logged granting r next := by
  obtain ⟨recent, hrecent, hall⟩ := h
  refine ⟨recent, hrecent, fun entry hentry => ?_⟩
  have houtlasts := hall entry hentry
  cases entry with
  | call request outcome =>
      cases outcome with
      | error error => cases houtlasts
      | ok response =>
          simp only [outlasting, Bool.and_eq_true] at houtlasts
          exact houtlasts.1
  | epochReset proto => cases houtlasts
  | _ => rfl

theorem late_sendMapRequest {target : MappingTarget} {begun finish : Nat}
    (hsocket : r.rpcSocket = true) (hbegun : begun ≤ world.clock r.drawn)
    (hlogged : Logged (outlasting (finish - begun)) r (r.sendMapRequest world target)) :
    begun ≤ world.clock (r.sendMapRequest world target).drawn ∧
      ∀ mapping, (r.sendMapRequest world target).mappings.lookup target.key = some mapping →
        finish < mapping.renewAt := by
  have hrequested := requested_sendMapRequest world r target
  generalize r.sendMapRequest world target = sent at hrequested hlogged
  cases hrequested with
  | @granted asked proto nonce ack epoch response earlier _ hasked _ _ hsuffix hlog hack =>
      cases hepoch : asked.epochRegressed epoch with
      | true =>
          obtain ⟨later, hlater⟩ :=
            log_established_of_regressed world hepoch proto target nonce ack
          cases hlogged.of_entry hlater hasked.log_suffix
      | false =>
          obtain ⟨later, hlater⟩ := log_established world asked proto target nonce ack epoch
          rw [hlog] at hlater
          have houtlasts := hlogged.of_entry hlater hsuffix
          simp only [outlasting, Bool.and_eq_true, decide_eq_true_eq, lifetimeMs_of_ack hack]
            at houtlasts
          obtain ⟨nonces, drawn, calls, hdrawn, rfl⟩ := hasked
          have hclock := hbegun.trans (world.clock_mono hdrawn)
          simp only [established, noteEpoch, hepoch, Bool.false_eq_true, ↓reduceIte, record]
          refine ⟨hclock.trans (world.clock_mono (Nat.le_succ _)), fun mapping hheld => ?_⟩
          rw [AList.lookup_insert, Option.some.injEq] at hheld
          rw [← hheld]
          dsimp only
          omega
  | failed hacts _ hrefused =>
      rcases hrefused.of_logged (granting_of_outlasting hlogged) with
        ⟨-, hclosed⟩ | ⟨request, outcome, hcall, herror⟩
      · cases (hacts.socket hsocket).symm.trans hclosed
      · rw [granting, herror] at hcall
        cases hcall

def KeyedTable (r : Reconciler) : Prop :=
  ∀ key mapping, r.mappings.lookup key = some mapping → mapping.target.key = key

theorem late_foldl_renewOne (keys : List MappingKey) {begun finish : Nat}
    (hsocket : r.rpcSocket = true) (hkeyed : KeyedTable r) (hbegun : begun ≤ world.clock r.drawn)
    (hlogged : Logged (outlasting (finish - begun)) r (keys.foldl (renewOne world) r))
    (hlate : ∀ key mapping, r.mappings.lookup key = some mapping →
      key ∈ keys ∨ finish < mapping.renewAt) :
    ∀ key mapping, (keys.foldl (renewOne world) r).mappings.lookup key = some mapping →
      finish < mapping.renewAt := by
  induction keys generalizing r with
  | nil => exact fun key mapping hheld => (hlate key mapping hheld).resolve_left (by simp)
  | cons first rest ih =>
      have hacts := acts_renewOne world r first
      rw [List.foldl_cons] at hlogged ⊢
      obtain ⟨hfirst, hrest⟩ := hlogged.split hacts.log_suffix
        (Acts.foldl (acts_renewOne world) rest _).log_suffix
      cases hheld : r.mappings.lookup first with
      | none =>
          have hsame : r.renewOne world first = r := by rw [renewOne, hheld]
          rw [hsame] at hrest ⊢
          refine ih hsocket hkeyed hbegun hrest fun key mapping hkey => ?_
          rcases hlate key mapping hkey with hmem | hlater
          · rcases List.mem_cons.1 hmem with rfl | hmem
            · cases hheld.symm.trans hkey
            · exact .inl hmem
          · exact .inr hlater
      | some mapping =>
          have hsent : r.renewOne world first = r.sendMapRequest world mapping.target := by
            rw [renewOne, hheld]
          obtain rfl := hkeyed first mapping hheld
          rw [hsent] at hfirst hrest hacts ⊢
          obtain ⟨hclock, hnew⟩ := late_sendMapRequest hsocket hbegun hfirst
          obtain ⟨⟨renewed, hrenewed, htarget⟩, hothers⟩ :=
            lookup_sendMapRequest_of_granting hsocket (granting_of_outlasting hfirst)
          refine ih (hacts.socket hsocket) (fun key other hother => ?_) hclock hrest
            fun key other hother => ?_
          · by_cases hkey : key = mapping.target.key
            · subst hkey
              rw [← Option.some.inj (hrenewed.symm.trans hother), htarget]
            · exact hkeyed key other ((hothers key hkey).symm.trans hother)
          · by_cases hkey : key = mapping.target.key
            · subst hkey
              exact .inr (hnew other hother)
            · rcases hlate key other ((hothers key hkey).symm.trans hother) with hmem | hlater
              · exact .inl (List.mem_of_ne_of_mem hkey hmem)
              · exact .inr hlater

theorem not_hurried_of_late (hactive : r.state = .active)
    (h : ∀ key mapping, r.mappings.lookup key = some mapping →
      world.clock r.drawn < mapping.renewAt) : ¬Hurried world (r.awaitEvent world) := by
  intro hhurried
  have hearly : r.computeNextTick (world.clock r.drawn) ≤ world.clock r.drawn := hhurried
  simp only [computeNextTick, hactive] at hearly
  cases hmin : (r.mappings.entries.map fun entry => entry.2.renewAt).min? with
  | none =>
      rw [hmin, Option.getD_none] at hearly
      omega
  | some earliest =>
      rw [hmin, Option.getD_some] at hearly
      obtain ⟨entry, hentry, rfl⟩ := List.mem_map.1 (List.min?_mem hmin)
      have hlate := h entry.1 entry.2 ((mem_entries_iff r.mappings).1 hentry)
      omega

/-- A pass with a grant is followed by a wait. -/
theorem ungranted_of_lasting (hkeyed : KeyedTable r) (hactive : r.state = .active)
    (hstep : step world r (.tick rules) = some next) (hlasting : Lasting world r next)
    (hnext : next.state = .active) (hhurried : Hurried world next) : Logged ungranted r next := by
  rcases hlasting with hnone | ⟨hsocket, hlogged, hcalm⟩
  · exact hnone
  · obtain ⟨-, rfl⟩ := step_tick_active hactive hstep
    refine absurd hhurried (not_hurried_of_late hnext ?_)
    set woken : Reconciler := { r with drawn := r.drawn + 1 }
    set due := woken.mappings.entries.filter
      (fun entry => entry.2.renewAt ≤ world.clock woken.drawn)
    have hperm := world.keyOrder_perm woken.drawn (due.map Sigma.fst)
    refine late_foldl_renewOne (r := { woken with drawn := woken.drawn + 1 }) _ hsocket hkeyed
      (world.clock_mono (Nat.le_add_right r.drawn 2)) hlogged fun key mapping hheld => ?_
    by_cases hdue : mapping.renewAt ≤ world.clock woken.drawn
    · left
      have hentry : (⟨key, mapping⟩ : Sigma fun _ => ActiveMapping) ∈ due :=
        List.mem_filter.2 ⟨(mem_entries_iff r.mappings).2 hheld, decide_eq_true hdue⟩
      exact hperm.mem_iff.2 (List.mem_map_of_mem hentry)
    · exact .inr (hcalm key mapping hheld (Nat.lt_of_not_le hdue))

theorem rushes_of_append {rest : List RuleSet}
    (h : Rushes world (passes ++ rest) r) : Rushes world passes r := by
  induction passes generalizing r with
  | nil => trivial
  | cons rules passes ih =>
      obtain ⟨hactive, next, hstep, hhurried, hnext⟩ := h
      exact ⟨hactive, next, hstep, fun hmore => hhurried (by simp [hmore]), ih hnext⟩

theorem keyedTable_run {params : NatMapperParams} {events : List Event} {reached : Reconciler}
    (hrun : run (step world) (start world params rules) events = some reached) :
    KeyedTable reached :=
  (attributed_run hrun).keyed

/-- The next passes are lasting, as long as the mapper stays active. -/
def LastingPasses (world : World) : Nat → Reconciler → Prop
  | 0, _ => True
  | count + 1, r => r.state = .active → ∀ rules next, step world r (.tick rules) = some next →
      Lasting world r next ∧ LastingPasses world count next

theorem failing_rush {last : RuleSet}
    (hreached : ∃ params rules events, run (step world) (start world params rules) events = some r)
    (hrushes : Rushes world (passes ++ [last]) r) (hlasting : LastingPasses world passes.length r)
    (h : Failing failures r) :
    ∃ after, after.state = .active ∧ Failing (failures + passes.length) after := by
  induction passes generalizing r failures with
  | nil => exact ⟨r, hrushes.1, h⟩
  | cons rules passes ih =>
      obtain ⟨hactive, next, hstep, hhurried, hnext⟩ := hrushes
      have hstate : next.state = .active := by
        cases passes with
        | nil => exact hnext.1
        | cons _ _ => exact hnext.1
      obtain ⟨params, first, events, hrun⟩ := hreached
      obtain ⟨hpass, hlater⟩ := hlasting hactive rules next hstep
      have hungranted := ungranted_of_lasting (keyedTable_run hrun) hactive hstep hpass hstate
        (hhurried (by simp))
      have hfailing := failing_pass (timed_run hrun (running_of_step hstep)) hactive hstep
        (hhurried (by simp)) hstate hungranted h
      have hrun' : run (step world) (start world params first) (events ++ [.tick rules]) =
          some next := run_append (step world) hrun (by rw [run, hstep]; rfl)
      rw [List.length_cons, Nat.add_comm passes.length, ← Nat.add_assoc]
      exact ih ⟨params, first, _, hrun'⟩ hnext hlater hfailing

/--
From a reached state at most three passes follow each other without a wait, as
long as each of the next three is lasting: a grant that is too short, or comes
with a failure, sets the counter of failures back without bringing a wait.
-/
theorem renewals_paced (world : World) (params : NatMapperParams) (rules : RuleSet)
    (events : List Event) (reached : Reconciler)
    (hrun : run (step world) (start world params rules) events = some reached)
    (hlasting : LastingPasses world errorThresholdToBackoff reached) : Paced world reached := by
  intro passes hrushes
  by_contra hmany
  obtain ⟨first, second, third, fourth, rest, rfl⟩ :
      ∃ first second third fourth rest, passes = [first, second, third, fourth] ++ rest := by
    rcases passes with _ | ⟨first, _ | ⟨second, _ | ⟨third, _ | ⟨fourth, rest⟩⟩⟩⟩
    · exact absurd (Nat.zero_le _) hmany
    · exact absurd (Nat.le_add_left 1 2) hmany
    · exact absurd (Nat.le_add_left 2 1) hmany
    · exact absurd (le_refl 3) hmany
    · exact ⟨first, second, third, fourth, rest, rfl⟩
  have hthree : Rushes world ([first, second, third] ++ [fourth]) reached :=
    rushes_of_append hrushes
  have hnone : Failing 0 reached := fun _ => ⟨Nat.zero_le _, fun h => absurd h (lt_irrefl 0)⟩
  obtain ⟨after, hended, hcount⟩ :=
    failing_rush ⟨params, rules, events, hrun⟩ hthree hlasting hnone
  obtain ⟨hleast, hmost⟩ := hcount hended
  exact absurd hleast (Nat.not_le_of_lt (hmost (Nat.lt_add_left 0 (Nat.succ_pos 2))))

/-- Renewals that are never answered, the third of which puts the mapper into backoff; and one that
is granted for two hours. -/
theorem unanswered_renewals_paced :
    Rushes silentWorld [sshRules, sshRules, sshRules] (start silentWorld pcpParams sshRules) ∧
      Paced silentWorld (start silentWorld pcpParams sshRules) ∧
      Paced steadyWorld (start steadyWorld pcpParams sshRules) := by
  refine ⟨?_, renewals_paced silentWorld pcpParams sshRules [] _ rfl ?_,
    renewals_paced steadyWorld pcpParams sshRules [] _ rfl ?_⟩
  · refine ⟨rfl, _, rfl, fun _ => ?_, rfl, _, rfl, fun _ => ?_, rfl, _, rfl, fun h => ?_, trivial⟩
    · unfold Hurried
      decide
    · unfold Hurried
      decide
    · exact absurd rfl h
  · iterate 3
      intro _ rules next hstep
      cases hstep
      refine ⟨.inl ⟨[_], rfl, by decide⟩, ?_⟩
    trivial
  · intro _ rules next hstep
    cases hstep
    refine ⟨.inr ⟨rfl, ⟨[_, _], rfl, by decide⟩, fun key mapping hheld hlater => ?_⟩, ?_⟩
    · cases List.mem_singleton.1 ((mem_entries_iff _).2 hheld)
      exact absurd hlater (by decide)
    · intro _ rules next hstep
      cases hstep

def instantWorld : World :=
  { plainWorld (fun _ =>
      { sent := .ok ()
        reception := .packet
          (Pcp.synthesize ⟨.success, 1000, 0, 3, .tcp, 22, 22, 0xCB00712A⟩) }) with
    clock := fun _ => 0
    clock_mono := fun _ _ _ => le_rfl }

def instantMapper (drawn : Nat) (log : List LogEntry) : Reconciler :=
  { start instantWorld pcpParams sshRules with drawn := drawn, log := log }

theorem step_instantMapper (drawn : Nat) (log : List LogEntry) (rules : RuleSet) :
    ∃ drawn' log', step instantWorld (instantMapper drawn log) (.tick rules) =
      some (instantMapper drawn' log') :=
  ⟨_, _, rfl⟩

theorem rushes_instantMapper (passes : List RuleSet) (drawn : Nat) (log : List LogEntry) :
    Rushes instantWorld passes (instantMapper drawn log) := by
  induction passes generalizing drawn log with
  | nil => trivial
  | cons rules passes ih =>
      obtain ⟨drawn', log', hstep⟩ := step_instantMapper drawn log rules
      exact ⟨rfl, _, hstep, fun _ => Nat.zero_le _, ih drawn' log'⟩

/-- The mapping is due again as soon as it is recorded, and no number of passes ends this. -/
theorem instant_lifetime_renewed_forever :
    (∀ count, Rushes instantWorld (List.replicate count sshRules)
      (start instantWorld pcpParams sshRules)) ∧
    ¬ Paced instantWorld (start instantWorld pcpParams sshRules) := by
  have hforever : ∀ count, Rushes instantWorld (List.replicate count sshRules)
      (start instantWorld pcpParams sshRules) := fun count => rushes_instantMapper _ _ _
  refine ⟨hforever, fun hpaced => ?_⟩
  exact absurd (hpaced _ (hforever 4)) (by decide)

end Reconciler

end Yggdrasil.NatTraversal
