import Yggdrasil.NatTraversal.Requests

/-!
# What a reconcile pass arrives at

A pass compares the table with the targets by protocol and port alone.  Keys
that are no longer wanted are released and keys that are missing are requested,
so with a gateway that grants everything the keys come out right.  A mapping
whose key stays is not looked at, and keeps the target it was made for.
-/

namespace Yggdrasil.NatTraversal

open Foundation Ratatoskr

namespace Reconciler

def granting : LogEntry → Bool
  | .call _ outcome => (callError outcome).isNone
  | .epochReset _ => false
  | _ => true

structure Reaches (targets : List MappingTarget)
    (mappings : AList (fun _ : MappingKey => ActiveMapping)) : Prop where
  keys : ∀ key, key ∈ mappings ↔ key ∈ targets.map MappingTarget.key
  current : ∀ key mapping, mappings.lookup key = some mapping →
    mapping.target ∈ targets ∧ mapping.target.key = key

variable {targets : List MappingTarget} {key : MappingKey} {target : MappingTarget}
  {r opened : Reconciler} {rules : RuleSet}

theorem lookup_byKey :
    (byKey targets).lookup key = targets.find? (fun target => target.key = key) := by
  have hfold : ∀ (targets : List MappingTarget)
      (table : AList (fun _ : MappingKey => MappingTarget)),
      (targets.foldl (fun table target =>
          if target.key ∈ table then table else table.insert target.key target) table).lookup key =
        (table.lookup key).or (targets.find? (fun target => target.key = key)) := by
    intro targets
    induction targets with
    | nil => simp
    | cons target rest ih =>
        intro table
        rw [List.foldl_cons, ih]
        by_cases hkey : target.key = key
        · subst hkey
          by_cases hmem : target.key ∈ table
          · obtain ⟨held, hheld⟩ := mem_iff_lookup.1 hmem
            rw [if_pos hmem, hheld, Option.some_or, Option.some_or]
          · rw [if_neg hmem, AList.lookup_insert, Option.some_or, AList.lookup_eq_none.2 hmem,
              Option.none_or, List.find?_cons_of_pos (by simp)]
        · rw [List.find?_cons_of_neg (by simpa using hkey)]
          split
          · rfl
          · rw [AList.lookup_insert_ne (Ne.symm hkey)]
  rw [byKey, hfold, AList.lookup_empty, Option.none_or]

theorem mem_of_lookup_byKey (h : (byKey targets).lookup key = some target) :
    target ∈ targets ∧ target.key = key := by
  rw [lookup_byKey] at h
  exact ⟨List.mem_of_find?_eq_some h, by simpa using List.find?_some h⟩

theorem mem_byKey : key ∈ byKey targets ↔ key ∈ targets.map MappingTarget.key := by
  rw [← AList.lookup_isSome, lookup_byKey, List.find?_isSome, List.mem_map]
  simp

variable (world : World)

theorem lookup_dropOne (r : Reconciler) (key other : MappingKey) :
    (r.dropOne world key).mappings.lookup other =
      if other = key then none else r.mappings.lookup other := by
  unfold dropOne
  split
  · rename_i habsent
    split
    · rename_i hsame
      rw [hsame, habsent]
    · rfl
  · rename_i mapping hheld
    change (r.mappings.erase key).lookup other = _
    split
    · rename_i hsame
      rw [hsame, AList.lookup_erase]
    · rename_i hne
      rw [AList.lookup_erase_ne hne]

theorem lookup_foldl_dropOne (keys : List MappingKey) (r : Reconciler) (other : MappingKey) :
    (keys.foldl (dropOne world) r).mappings.lookup other =
      if other ∈ keys then none else r.mappings.lookup other := by
  induction keys generalizing r with
  | nil => simp
  | cons key rest ih =>
      rw [List.foldl_cons, ih, lookup_dropOne]
      by_cases hrest : other ∈ rest
      · simp [hrest]
      · by_cases hkey : other = key
        · simp [hkey]
        · simp [hrest, hkey]

variable {world}

theorem lookup_sendMapRequest_of_granting (hsocket : r.rpcSocket = true)
    (hlogged : Logged granting r (r.sendMapRequest world target)) :
    (∃ mapping, (r.sendMapRequest world target).mappings.lookup target.key = some mapping ∧
      mapping.target = target) ∧
    ∀ key, key ≠ target.key →
      (r.sendMapRequest world target).mappings.lookup key = r.mappings.lookup key := by
  have hrequested := requested_sendMapRequest world r target
  generalize r.sendMapRequest world target = sent at hrequested hlogged ⊢
  cases hrequested with
  | @granted asked proto nonce ack epoch response earlier _ hasked =>
      obtain ⟨mapping, hheld, htarget, -⟩ :=
        lookup_established_self world asked proto target nonce ack epoch
      refine ⟨⟨mapping, hheld, htarget⟩, fun key hne => ?_⟩
      cases hepoch : asked.epochRegressed epoch with
      | true =>
          -- a reset would be in the log
          obtain ⟨later, hlater⟩ :=
            log_established_of_regressed world hepoch proto target nonce ack
          cases hlogged.of_entry hlater hasked.log_suffix
      | false =>
          rw [lookup_established_ne hepoch proto target nonce ack hne]
          obtain ⟨nonces, drawn, calls, -, rfl⟩ := hasked
          rfl
  | failed hacts _ hrefused =>
      rcases hrefused.of_logged hlogged with ⟨-, hclosed⟩ | ⟨request, outcome, hcall, herror⟩
      · cases (hacts.socket hsocket).symm.trans hclosed
      · rw [granting, herror] at hcall
        cases hcall

theorem lookup_foldl_of_granting (hkeys : (targets.map MappingTarget.key).Nodup)
    (hsocket : r.rpcSocket = true)
    (hlogged : Logged granting r (targets.foldl (sendMapRequest world) r)) :
    (∀ target ∈ targets, ∃ mapping,
      (targets.foldl (sendMapRequest world) r).mappings.lookup target.key = some mapping ∧
        mapping.target = target) ∧
    ∀ key, key ∉ targets.map MappingTarget.key →
      (targets.foldl (sendMapRequest world) r).mappings.lookup key = r.mappings.lookup key := by
  induction targets generalizing r with
  | nil => exact ⟨by simp, fun _ _ => rfl⟩
  | cons first rest ih =>
      rw [List.map_cons, List.nodup_cons] at hkeys
      have hacts := acts_sendMapRequest world r first
      obtain ⟨hfirst, hrest⟩ := hlogged.split hacts.log_suffix
        (Acts.foldl (acts_sendMapRequest world) rest _).log_suffix
      obtain ⟨⟨mapping, hheld, htarget⟩, hothers⟩ :=
        lookup_sendMapRequest_of_granting hsocket hfirst
      obtain ⟨hlater, hkept⟩ := ih hkeys.2 (hacts.socket hsocket) hrest
      constructor
      · intro target hmem
        rcases List.mem_cons.1 hmem with rfl | hmem
        · exact ⟨mapping, (hkept target.key hkeys.1).trans hheld, htarget⟩
        · exact hlater target hmem
      · intro key hnew
        rw [List.map_cons, List.mem_cons, not_or] at hnew
        exact (hkept key hnew.2).trans (hothers key hnew.1)

abbrev TargetTable := AList (fun _ : MappingKey => MappingTarget)

def dropUnwanted (world : World) (desired : TargetTable) (r : Reconciler) : Reconciler :=
  (world.keyOrder r.drawn (r.mappings.keys.filter (fun key => key ∉ desired))).foldl
    (dropOne world) { r with drawn := r.drawn + 1 }

def missing (desired : TargetTable) (r : Reconciler) : List MappingTarget :=
  (desired.entries.filter (fun entry => entry.1 ∉ r.mappings)).map Sigma.snd

def requestMissing (world : World) (desired : TargetTable) (r : Reconciler) : Reconciler :=
  (world.targetOrder r.drawn (r.missing desired)).foldl (sendMapRequest world)
    { r with drawn := r.drawn + 1 }

def desiredTable (world : World) (rules : RuleSet) (r : Reconciler) : TargetTable :=
  byKey (world.targetOrder r.drawn (r.desiredTargets rules))

theorem reconcileTargets_of_opened (h : r.ensureRpcSocket world = (.ok (), opened)) :
    reconcileTargets world rules r =
      (opened.dropUnwanted world (opened.desiredTable world rules)).requestMissing world
        (opened.desiredTable world rules) := by
  unfold reconcileTargets
  rw [h]
  rfl

theorem reconcileTargets_of_error (rules : RuleSet) {closed : Reconciler} {message : String}
    (h : r.ensureRpcSocket world = (.error message, closed)) :
    reconcileTargets world rules r = closed.transitionBackoff (.rpcSocket message) := by
  unfold reconcileTargets
  rw [h]

theorem ensureRpcSocket_opened (h : r.ensureRpcSocket world = (.ok (), opened)) :
    ∃ drawn, opened = { r with rpcSocket := true, drawn := drawn } := by
  unfold ensureRpcSocket at h
  split at h
  · rename_i hsocket
    obtain ⟨-, rfl⟩ := Prod.mk.inj h
    exact ⟨r.drawn, by rw [← hsocket]⟩
  · split at h
    · cases h
    · obtain ⟨-, rfl⟩ := Prod.mk.inj h
      exact ⟨_, rfl⟩

theorem ensureRpcSocket_error {closed : Reconciler} {message : String}
    (h : r.ensureRpcSocket world = (.error message, closed)) :
    closed = { r with drawn := r.drawn + 1 } := by
  unfold ensureRpcSocket at h
  split at h
  · cases h
  · split at h
    · exact (Prod.mk.inj h).2.symm
    · cases h

theorem mem_desiredTable :
    key ∈ r.desiredTable world rules ↔ key ∈ (r.desiredTargets rules).map MappingTarget.key := by
  have hperm := world.targetOrder_perm r.drawn (r.desiredTargets rules)
  rw [desiredTable, mem_byKey, (hperm.map _).mem_iff]

theorem of_lookup_desiredTable (h : (r.desiredTable world rules).lookup key = some target) :
    target ∈ r.desiredTargets rules ∧ target.key = key := by
  obtain ⟨hmem, hkey⟩ := mem_of_lookup_byKey h
  exact ⟨(world.targetOrder_perm r.drawn (r.desiredTargets rules)).mem_iff.1 hmem, hkey⟩

variable (world) in
theorem lookup_dropUnwanted (desired : TargetTable) (r : Reconciler) (key : MappingKey) :
    (r.dropUnwanted world desired).mappings.lookup key =
      if key ∈ desired then r.mappings.lookup key else none := by
  have hdropped : key ∈ world.keyOrder r.drawn
        (r.mappings.keys.filter (fun key => key ∉ desired)) ↔
      key ∈ r.mappings ∧ key ∉ desired := by
    rw [(world.keyOrder_perm _ _).mem_iff, List.mem_filter, decide_eq_true_eq]
    exact and_congr_left' AList.mem_keys.symm
  rw [dropUnwanted, lookup_foldl_dropOne]
  by_cases hwanted : key ∈ desired
  · rw [if_neg (fun h => (hdropped.1 h).2 hwanted), if_pos hwanted]
  · rw [if_neg hwanted]
    by_cases hheld : key ∈ r.mappings
    · rw [if_pos (hdropped.2 ⟨hheld, hwanted⟩)]
    · rw [if_neg (fun h => hheld (hdropped.1 h).1)]
      exact AList.lookup_eq_none.2 hheld

variable (world) in
theorem acts_dropUnwanted (desired : TargetTable) (r : Reconciler) :
    Acts world r (r.dropUnwanted world desired) :=
  (Acts.foldl (acts_dropOne world) _ _).after_draw

variable (world) in
theorem acts_requestMissing (desired : TargetTable) (r : Reconciler) :
    Acts world r (r.requestMissing world desired) :=
  (Acts.foldl (acts_sendMapRequest world) _ _).after_draw

section

variable {desired : TargetTable}
  (hkeyed : ∀ key target, desired.lookup key = some target → target.key = key)

include hkeyed

theorem mem_missing {r : Reconciler} {target : MappingTarget} :
    target ∈ r.missing desired ↔
      desired.lookup target.key = some target ∧ target.key ∉ r.mappings := by
  simp only [missing, List.mem_map, List.mem_filter, decide_eq_true_eq]
  constructor
  · rintro ⟨⟨key, target⟩, ⟨hentry, hnew⟩, rfl⟩
    have hlookup := (mem_entries_iff desired).1 hentry
    obtain rfl := hkeyed key target hlookup
    exact ⟨hlookup, hnew⟩
  · rintro ⟨hlookup, hnew⟩
    exact ⟨⟨target.key, target⟩, ⟨(mem_entries_iff desired).2 hlookup, hnew⟩, rfl⟩

theorem map_key_missing (r : Reconciler) :
    (r.missing desired).map MappingTarget.key =
      (desired.entries.filter (fun entry => entry.1 ∉ r.mappings)).map Sigma.fst := by
  rw [missing, List.map_map]
  apply List.map_congr_left
  rintro ⟨key, target⟩ hmem
  exact hkeyed key target ((mem_entries_iff desired).1 (List.mem_filter.1 hmem).1)

theorem lookup_requestMissing {r : Reconciler} (hsocket : r.rpcSocket = true)
    (hlogged : Logged granting r (r.requestMissing world desired)) :
    (∀ key target, desired.lookup key = some target → key ∉ r.mappings →
      ∃ mapping, (r.requestMissing world desired).mappings.lookup key = some mapping ∧
        mapping.target = target) ∧
    ∀ key, key ∈ r.mappings ∨ key ∉ desired →
      (r.requestMissing world desired).mappings.lookup key = r.mappings.lookup key := by
  have hperm := world.targetOrder_perm r.drawn (r.missing desired)
  have hkeys : ((world.targetOrder r.drawn (r.missing desired)).map MappingTarget.key).Nodup := by
    rw [(hperm.map _).nodup_iff, map_key_missing hkeyed]
    exact desired.keys_nodup.sublist (List.filter_sublist.map _)
  obtain ⟨hadded, hkept⟩ := lookup_foldl_of_granting hkeys
    (r := { r with drawn := r.drawn + 1 }) hsocket hlogged
  constructor
  · intro key target hlookup hnew
    obtain rfl := hkeyed key target hlookup
    exact hadded target (hperm.mem_iff.2 ((mem_missing hkeyed).2 ⟨hlookup, hnew⟩))
  · intro key hold
    refine hkept key fun hmem => ?_
    rw [(hperm.map _).mem_iff, List.mem_map] at hmem
    obtain ⟨target, htarget, rfl⟩ := hmem
    obtain ⟨hlookup, hnew⟩ := (mem_missing hkeyed).1 htarget
    rcases hold with hheld | hunwanted
    · exact hnew hheld
    · exact hunwanted (mem_iff_lookup.2 ⟨target, hlookup⟩)

end

def Current (targets : List MappingTarget)
    (mappings : AList (fun _ : MappingKey => ActiveMapping)) : Prop :=
  ∀ key mapping, mappings.lookup key = some mapping → key ∈ targets.map MappingTarget.key →
    mapping.target ∈ targets ∧ mapping.target.key = key

theorem lookup_reconcileTargets (hopened : r.ensureRpcSocket world = (.ok (), opened))
    (hlogged : Logged granting r (reconcileTargets world rules r)) (key : MappingKey) :
    (key ∉ (r.desiredTargets rules).map MappingTarget.key →
      (reconcileTargets world rules r).mappings.lookup key = none) ∧
    (key ∈ (r.desiredTargets rules).map MappingTarget.key → key ∈ r.mappings →
      (reconcileTargets world rules r).mappings.lookup key = r.mappings.lookup key) ∧
    (key ∈ (r.desiredTargets rules).map MappingTarget.key → key ∉ r.mappings →
      ∃ mapping, (reconcileTargets world rules r).mappings.lookup key = some mapping ∧
        mapping.target ∈ r.desiredTargets rules ∧ mapping.target.key = key) := by
  rw [reconcileTargets_of_opened hopened] at hlogged ⊢
  obtain ⟨drawn, rfl⟩ := ensureRpcSocket_opened hopened
  set opened : Reconciler := { r with rpcSocket := true, drawn := drawn }
  set desired := opened.desiredTable world rules with hdesired
  have hwanted : key ∈ desired ↔ key ∈ (r.desiredTargets rules).map MappingTarget.key :=
    mem_desiredTable
  have hkeyed : ∀ key target, desired.lookup key = some target → target.key = key :=
    fun key target h => (of_lookup_desiredTable h).2
  have hacts := acts_dropUnwanted world desired opened
  have hrest : Logged granting (opened.dropUnwanted world desired)
      ((opened.dropUnwanted world desired).requestMissing world desired) :=
    (Logged.split hlogged hacts.log_suffix (acts_requestMissing world _ _).log_suffix).2
  obtain ⟨hadded, hkept⟩ := lookup_requestMissing hkeyed (hacts.socket rfl) hrest
  have hdropped := lookup_dropUnwanted world desired opened key
  rw [← hwanted]
  refine ⟨fun hunwanted => ?_, fun hwant hheld => ?_, fun hwant hnew => ?_⟩
  · rw [hkept key (.inr hunwanted), hdropped, if_neg hunwanted]
  · rw [if_pos hwant] at hdropped
    rw [hkept key (.inl ?_), hdropped]
    rwa [mem_iff_lookup, hdropped, ← mem_iff_lookup]
  · rw [if_pos hwant] at hdropped
    obtain ⟨target, htarget⟩ := mem_iff_lookup.1 hwant
    obtain ⟨mapping, hmapping, rfl⟩ := hadded key target htarget (by
      rwa [mem_iff_lookup, hdropped, ← mem_iff_lookup])
    exact ⟨mapping, hmapping, of_lookup_desiredTable (r := opened) htarget⟩

theorem reaches_iff_of_opened (hopened : r.ensureRpcSocket world = (.ok (), opened))
    (hlogged : Logged granting r (reconcileTargets world rules r)) :
    Reaches (r.desiredTargets rules) (reconcileTargets world rules r).mappings ↔
      Current (r.desiredTargets rules) r.mappings := by
  have hlookup := lookup_reconcileTargets hopened hlogged
  constructor
  · intro hreaches key mapping hheld hwanted
    refine hreaches.current key mapping ?_
    rw [(hlookup key).2.1 hwanted (mem_iff_lookup.2 ⟨mapping, hheld⟩), hheld]
  · intro hcurrent
    refine ⟨fun key => ?_, fun key mapping hmapping => ?_⟩
    · by_cases hwanted : key ∈ (r.desiredTargets rules).map MappingTarget.key
      · refine iff_of_true (mem_iff_lookup.2 ?_) hwanted
        by_cases hheld : key ∈ r.mappings
        · rw [(hlookup key).2.1 hwanted hheld]
          exact mem_iff_lookup.1 hheld
        · obtain ⟨mapping, hmapping, -⟩ := (hlookup key).2.2 hwanted hheld
          exact ⟨mapping, hmapping⟩
      · refine iff_of_false (fun hmem => ?_) hwanted
        exact AList.lookup_eq_none.1 ((hlookup key).1 hwanted) hmem
    · by_cases hwanted : key ∈ (r.desiredTargets rules).map MappingTarget.key
      · by_cases hheld : key ∈ r.mappings
        · rw [(hlookup key).2.1 hwanted hheld] at hmapping
          exact hcurrent key mapping hmapping hwanted
        · obtain ⟨added, hadded, htarget⟩ := (hlookup key).2.2 hwanted hheld
          cases hadded.symm.trans hmapping
          exact htarget
      · rw [(hlookup key).1 hwanted] at hmapping
        cases hmapping

theorem reconcile_reaches_targets_iff (world : World) (rules : RuleSet) (r : Reconciler)
    (hlogged : Logged granting r (reconcileTargets world rules r)) :
    Reaches (r.desiredTargets rules) (reconcileTargets world rules r).mappings ↔
      ((r.ensureRpcSocket world).1 = .ok () ∧ Current (r.desiredTargets rules) r.mappings) ∨
        Reaches (r.desiredTargets rules) r.mappings := by
  cases hensure : r.ensureRpcSocket world with
  | mk outcome opened =>
      cases outcome with
      | error message =>
          have hclosed : (reconcileTargets world rules r).mappings = r.mappings := by
            rw [reconcileTargets_of_error rules hensure, ensureRpcSocket_error hensure]
            rfl
          rw [hclosed]
          exact ⟨.inr, fun h => h.resolve_left fun hok => by cases hok.1⟩
      | ok _ =>
          rw [reaches_iff_of_opened hensure hlogged]
          refine ⟨fun h => .inl ⟨rfl, h⟩, fun h => ?_⟩
          rcases h with h | h
          · exact h.2
          · exact fun key mapping hheld _ => h.current key mapping hheld

def movedRules : RuleSet where
  rules := [⟨"ssh", ⟨.v4 0xC0A8010B, 22⟩, .tcp, some 22, none, none, none⟩]
  routes := []
  bindable := by decide
  names_nodup := by decide
  claims_nodup := by decide

/-- A mapper that holds its target and one that is wanted no longer. -/
def holdingTwo : Reconciler :=
  let begun := start steadyWorld pcpParams sshRules
  { begun with
    mappings := begun.mappings.insert (.tcp, 80)
      ⟨⟨.tcp, 80, 0xC0A8010A, .rule "web"⟩, 80, none, 7200, 3600000, 0, .pcp, none⟩ }

theorem held_target_reached :
    ((.tcp, 22) ∈ holdingTwo.mappings ∧ (.tcp, 80) ∈ holdingTwo.mappings) ∧
    Reaches (holdingTwo.desiredTargets sshRules)
      (reconcileTargets steadyWorld sshRules holdingTwo).mappings := by
  refine ⟨by decide, (reconcile_reaches_targets_iff steadyWorld sshRules holdingTwo
    ⟨[_], rfl, by decide⟩).2 (.inl ⟨rfl, ?_⟩)⟩
  intro key mapping hheld hwanted
  obtain rfl := List.mem_singleton.1 hwanted
  cases hheld
  decide

/-- The listener has moved, nothing is requested and the mapping leads to the old address. -/
theorem moved_listener_keeps_old_target :
    ∃ begun mapping,
      start steadyWorld pcpParams sshRules = begun ∧
      Logged granting begun (reconcileTargets steadyWorld movedRules begun) ∧
      (reconcileTargets steadyWorld movedRules begun).mappings.lookup (.tcp, 22) = some mapping ∧
      mapping.target = ⟨.tcp, 22, 0xC0A8010A, .rule "ssh"⟩ ∧
      begun.desiredTargets movedRules = [⟨.tcp, 22, 0xC0A8010B, .rule "ssh"⟩] :=
  ⟨_, _, rfl, ⟨[], rfl, by simp⟩, rfl, rfl, rfl⟩

end Reconciler

end Yggdrasil.NatTraversal
