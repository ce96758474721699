import Yggdrasil.Proxy.Supervisor

/-!
# What a reload does not touch

One call stops and spawns proxies one after another.  Seen as the list of these
actions, it never names a rule that the old and the new set have in common, so
the proxy of such a rule is there before the call, after it, and at every moment
between.  A proxy is only ever spawned on a socket that no running one holds.
-/

namespace Yggdrasil.Proxy

open Foundation Ratatoskr

namespace Supervisor

inductive Action where
  | stop (name : String)
  | spawn (rule : Rule)
  deriving DecidableEq, Repr

def Action.name : Action → String
  | stop name => name
  | spawn rule => rule.name

def actions (diff : RuleDiff) : List Action :=
  diff.removed.map (fun rule => .stop rule.name) ++
    (diff.changed.flatMap (fun change => [.stop change.old.name, .spawn change.new]) ++
      diff.added.map .spawn)

section

variable (defaultBind : Option IpAddr) (env : Surroundings)

def act (supervisor : Supervisor) : Action → Supervisor
  | .stop name => supervisor.stop name
  | .spawn rule => supervisor.bringOnline defaultBind env rule

theorem foldl_stop (supervisor : Supervisor) (rules : List Rule) :
    (rules.map (fun rule => Action.stop rule.name)).foldl (act defaultBind env) supervisor =
      { supervisor with active := eraseAll (rules.map Rule.name) supervisor.active } := by
  induction rules generalizing supervisor with
  | nil => rfl
  | cons first rest ih =>
      rw [List.map_cons, List.foldl_cons, ih]
      rfl

theorem foldl_swap (supervisor : Supervisor) (changes : List RuleChange) :
    (changes.flatMap (fun change => [Action.stop change.old.name, .spawn change.new])).foldl
        (act defaultBind env) supervisor =
      changes.foldl (swap defaultBind env) supervisor := by
  induction changes generalizing supervisor with
  | nil => rfl
  | cons first rest ih =>
      rw [List.flatMap_cons, List.foldl_append, ih]
      rfl

theorem applyUpdate_eq_foldl_act (supervisor : Supervisor) (diff : RuleDiff) :
    supervisor.applyUpdate defaultBind env diff =
      (actions diff).foldl (act defaultBind env) supervisor := by
  rw [actions, List.foldl_append, List.foldl_append, foldl_stop, foldl_swap, List.foldl_map]
  rfl

end

variable {defaultBind : Option IpAddr} {env : Surroundings} {supervisor : Supervisor}

theorem name_ne_of_unchanged {old new : RuleSet} {rule : Rule} (hold : rule ∈ old.rules)
    (hnew : rule ∈ new.rules) {action : Action} (haction : action ∈ actions (old.diff new)) :
    action.name ≠ rule.name := by
  have hfindOld := old.find_of_mem hold
  have hfindNew := new.find_of_mem hnew
  rw [actions, List.mem_append, List.mem_append] at haction
  rcases haction with hremoved | hchanged | hadded
  · obtain ⟨gone, hgone, rfl⟩ := List.mem_map.1 hremoved
    intro (hname : gone.name = rule.name)
    have habsent := ((RuleSet.mem_removed_diff old new).1 hgone).2
    rw [hname, hfindNew] at habsent
    cases habsent
  · obtain ⟨change, hchange, haction⟩ := List.mem_flatMap.1 hchanged
    obtain ⟨hrule, hfind, hdiffers⟩ := (RuleSet.mem_changed_diff old new).1 hchange
    have hnames : change.old.name = change.new.name := (old.find_eq_some_iff.1 hfind).2
    have hother : change.new.name ≠ rule.name := by
      intro hname
      have hsame : change.new = rule := by
        rw [← Option.some.injEq, ← new.find_of_mem hrule, hname, hfindNew]
      rw [hname, hfindOld] at hfind
      exact hdiffers ((Option.some.inj hfind).symm.trans hsame.symm)
    rcases List.mem_pair.1 haction with rfl | rfl
    · exact hnames ▸ hother
    · exact hother
  · obtain ⟨added, hadd, rfl⟩ := List.mem_map.1 hadded
    intro (hname : added.name = rule.name)
    have habsent := ((RuleSet.mem_added_diff old new).1 hadd).2
    rw [hname, hfindOld] at habsent
    cases habsent

theorem lookup_act_ne (supervisor : Supervisor) {action : Action} {name : String}
    (hne : action.name ≠ name) :
    (supervisor.act defaultBind env action).active.lookup name = supervisor.active.lookup name := by
  cases action with
  | stop other => exact AList.lookup_erase_ne hne.symm
  | spawn rule =>
      rcases bringOnline_cases defaultBind env supervisor rule with h | h
      · rw [act, h]
      · rw [act, h]
        exact AList.lookup_insert_ne hne.symm

theorem lookup_foldl_act_ne (supervisor : Supervisor) {taken : List Action} {name : String}
    (hne : ∀ action ∈ taken, action.name ≠ name) :
    (taken.foldl (act defaultBind env) supervisor).active.lookup name =
      supervisor.active.lookup name := by
  induction taken generalizing supervisor with
  | nil => rfl
  | cons first rest ih =>
      rw [List.forall_mem_cons] at hne
      rw [List.foldl_cons, ih _ hne.2, lookup_act_ne _ hne.1]

def Disjoint (supervisor : Supervisor) : Prop := (collectClaimedAddrs supervisor.active).Nodup

theorem disjoint_stop (h : supervisor.Disjoint) (name : String) :
    (supervisor.stop name).Disjoint :=
  h.sublist ((List.kerase_sublist name supervisor.active.entries).map _)

theorem claim_free_of_spawn {rule : Rule} {proxy : ActiveProxy}
    (h : supervisor.spawnProxyForRule defaultBind env rule = .ok proxy) :
    proxy.claim ∉ collectClaimedAddrs supervisor.active := by
  rw [spawnProxyForRule_ok h]
  unfold spawnProxyForRule at h
  dsimp only at h
  split at h
  · cases h
  · assumption

theorem disjoint_bringOnline (h : supervisor.Disjoint) (rule : Rule) :
    (supervisor.bringOnline defaultBind env rule).Disjoint := by
  unfold bringOnline
  cases hspawn : supervisor.spawnProxyForRule defaultBind env rule with
  | error e => exact h
  | ok proxy =>
      -- the insert drops what was there under the name, and puts the new proxy in front
      have hclaims : collectClaimedAddrs (supervisor.active.insert rule.name proxy) =
          proxy.claim :: collectClaimedAddrs (supervisor.active.erase rule.name) := rfl
      have hkept : (collectClaimedAddrs (supervisor.active.erase rule.name)).Sublist
          (collectClaimedAddrs supervisor.active) :=
        (List.kerase_sublist rule.name supervisor.active.entries).map _
      change (collectClaimedAddrs (supervisor.active.insert rule.name proxy)).Nodup
      rw [hclaims, List.nodup_cons]
      exact ⟨fun hheld => claim_free_of_spawn hspawn (hkept.subset hheld), h.sublist hkept⟩

theorem disjoint_act (h : supervisor.Disjoint) (action : Action) :
    (supervisor.act defaultBind env action).Disjoint := by
  cases action with
  | stop name => exact disjoint_stop h name
  | spawn rule => exact disjoint_bringOnline h rule

theorem disjoint_foldl_act (h : supervisor.Disjoint) (taken : List Action) :
    (taken.foldl (act defaultBind env) supervisor).Disjoint := by
  induction taken generalizing supervisor with
  | nil => exact h
  | cons first rest ih => exact ih (disjoint_act h first)

theorem active_applySet_eq_foldl_act (supervisor : Supervisor) (newSet : RuleSet) :
    (supervisor.applySet defaultBind env newSet).active =
      ((actions (supervisor.currentSet.diff newSet)).foldl (act defaultBind env)
        supervisor).active := by
  rw [← applyUpdate_eq_foldl_act]
  rfl

theorem disjoint_of_run {calls : List (Surroundings × RuleSet)}
    (hrun : run (step defaultBind) start calls = some supervisor) : supervisor.Disjoint := by
  refine run_invariant (step defaultBind) (P := Disjoint) ?_ ?_ hrun
  · intro state call next h hstep
    rw [← Option.some.inj hstep, Disjoint, active_applySet_eq_foldl_act]
    exact disjoint_foldl_act h _
  · exact List.nodup_nil

/--
From every reachable state: whatever part of a call has been done, no two
running proxies share a listen address and protocol; no action of the call names
a rule that both sets contain, and the proxy of such a rule stays what it was
all along and afterwards.
-/
theorem reload_leaves_rest_alone {calls : List (Surroundings × RuleSet)}
    (hrun : run (step defaultBind) start calls = some supervisor) (env : Surroundings)
    (newSet : RuleSet) :
    (supervisor.applySet defaultBind env newSet).active =
      ((actions (supervisor.currentSet.diff newSet)).foldl (act defaultBind env)
        supervisor).active ∧
    (∀ taken, taken <+: actions (supervisor.currentSet.diff newSet) →
      (collectClaimedAddrs (taken.foldl (act defaultBind env) supervisor).active).Nodup) ∧
    ∀ rule ∈ supervisor.currentSet.rules, rule ∈ newSet.rules →
      (∀ action ∈ actions (supervisor.currentSet.diff newSet), action.name ≠ rule.name) ∧
      ∀ taken, taken <+: actions (supervisor.currentSet.diff newSet) →
        (taken.foldl (act defaultBind env) supervisor).active.lookup rule.name =
          supervisor.active.lookup rule.name := by
  refine ⟨active_applySet_eq_foldl_act supervisor newSet, ?_, ?_⟩
  · intro taken _
    exact disjoint_foldl_act (disjoint_of_run hrun) taken
  · intro rule hold hnew
    have hne : ∀ action ∈ actions (supervisor.currentSet.diff newSet), action.name ≠ rule.name :=
      fun action haction => name_ne_of_unchanged hold hnew haction
    refine ⟨hne, fun taken htaken => ?_⟩
    exact lookup_foldl_act_ne supervisor (fun action haction => hne action (htaken.subset haction))

def keptSet : RuleSet :=
  ⟨[toyRule "a" 1, toyRule "c" 2], [], by decide, by decide, by decide⟩

/-- The second rule is replaced by one on its port; the first keeps its proxy. -/
theorem reload_leaves_first_rule_alone :
    ∃ supervisor, run (step none) start [(obliging, straightSet)] = some supervisor ∧
      supervisor.active.lookup "a" = some ⟨toyRule "a" 1, 0⟩ ∧
      (supervisor.applySet none obliging keptSet).active.lookup "a" = some ⟨toyRule "a" 1, 0⟩ ∧
      (collectClaimedAddrs (supervisor.applySet none obliging keptSet).active).Nodup := by
  have hrun : run (step none) start [(obliging, straightSet)] =
      some (start.applySet none obliging straightSet) := rfl
  have hbefore : (start.applySet none obliging straightSet).active.lookup "a" =
      some ⟨toyRule "a" 1, 0⟩ := by decide
  obtain ⟨hactive, hdisjoint, hkept⟩ := reload_leaves_rest_alone hrun obliging keptSet
  refine ⟨_, hrun, hbefore, ?_, ?_⟩
  · rw [hactive, ← hbefore]
    exact (hkept (toyRule "a" 1) (by decide) (by decide)).2 _ List.prefix_rfl
  · rw [hactive]
    exact hdisjoint _ List.prefix_rfl

end Supervisor

end Yggdrasil.Proxy
