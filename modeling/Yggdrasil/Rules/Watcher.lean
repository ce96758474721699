import Yggdrasil.Proxy.Supervisor

/-!
# Rule files and pushed rule sets

Two sources feed the supervisor: the worker that reloads the rule files, and
the channel for sets pushed from outside.  The worker compares each reload with
the set it sent last, not with the set the supervisor runs, and sends nothing
when it sees no change.  The supervisor serves the worker's channel first.
-/

namespace Yggdrasil.Rules

open Foundation Ratatoskr Proxy
open Yggdrasil.Proxy.Supervisor (obliging straightSet crossedSet shiftedSet)

def updatesCapacity : Nat := 8
def applyCapacity : Nat := 8

structure Node where
  /-- The worker's own copy, `current` in its loop. -/
  watched : RuleSet
  /-- The worker's channel; a ninth entry is the update its `send` waits with. -/
  updates : List RuleSet
  pushes : List RuleSet
  supervisor : Supervisor

inductive Event where
  | push (set : RuleSet)
  | reload (loaded : Option RuleSet)
  | take (env : Surroundings)

namespace Node

def start (initial : RuleSet) : Node := ⟨initial, [initial], [], .start⟩

def push (node : Node) (set : RuleSet) : Option Node :=
  if node.pushes.length < applyCapacity then some { node with pushes := node.pushes ++ [set] }
  else none

def reload (node : Node) : Option RuleSet → Node
  | some next =>
      if (node.watched.diff next).isNoop then node
      else { node with watched := next, updates := node.updates ++ [next] }
  | none => node

def take (defaultBind : Option IpAddr) (node : Node) (env : Surroundings) : Option Node :=
  match node.updates with
  | set :: updates =>
      some { node with
        updates := updates
        supervisor := node.supervisor.applySet defaultBind env set }
  | [] =>
      match node.pushes with
      | set :: pushes =>
          some { node with
            pushes := pushes
            supervisor := node.supervisor.applySet defaultBind env set }
      | [] => none

def step (defaultBind : Option IpAddr) (node : Node) : Event → Option Node
  | .push set => node.push set
  | .reload loaded =>
      if node.updates.length ≤ updatesCapacity then some (node.reload loaded) else none
  | .take env => node.take defaultBind env

def newest (node : Node) : RuleSet :=
  (node.updates ++ node.pushes).getLastD node.supervisor.currentSet

def Drained (node : Node) : Prop := node.updates = [] ∧ node.pushes = []

def Drains (defaultBind : Option IpAddr) (node final : Node) : Prop :=
  ∃ envs : List Surroundings,
    run (step defaultBind) node (envs.map Event.take) = some final ∧ final.Drained

variable {defaultBind : Option IpAddr} {node next final : Node}

theorem newest_of_drained (h : node.Drained) : node.newest = node.supervisor.currentSet := by
  unfold newest
  rw [h.1, h.2]
  rfl

theorem newest_take {env : Surroundings} (h : node.take defaultBind env = some next) :
    next.newest = node.newest := by
  unfold take at h
  unfold newest
  cases hupdates : node.updates with
  | cons set updates =>
      simp only [hupdates, Option.some.injEq] at h
      rw [← h, List.cons_append, List.getLastD_cons]
      rfl
  | nil =>
      cases hpushes : node.pushes with
      | cons set pushes =>
          simp only [hupdates, hpushes, Option.some.injEq] at h
          rw [← h, List.nil_append, List.nil_append, List.getLastD_cons]
          rfl
      | nil => simp [hupdates, hpushes] at h

theorem newest_run_take {envs : List Surroundings}
    (h : run (step defaultBind) node (envs.map Event.take) = some final) :
    final.newest = node.newest := by
  induction envs generalizing node with
  | nil =>
      obtain rfl : node = final := Option.some.inj h
      rfl
  | cons env envs ih =>
      obtain ⟨next, htake, hrest⟩ := Option.bind_eq_some_iff.1 h
      rw [ih hrest]
      exact newest_take htake

theorem newest_push {set : RuleSet} (h : node.push set = some next) : next.newest = set := by
  unfold push at h
  split at h
  · cases h
    simp only [newest, ← List.append_assoc, List.getLastD_concat]
  · cases h

theorem currentSet_of_drains (h : node.Drains defaultBind final) :
    final.supervisor.currentSet = node.newest := by
  obtain ⟨envs, hrun, hdrained⟩ := h
  rw [← newest_of_drained hdrained, newest_run_take hrun]

theorem exists_take (defaultBind : Option IpAddr) (env : Surroundings) (h : ¬ node.Drained) :
    ∃ next, node.take defaultBind env = some next ∧
      next.updates.length + next.pushes.length < node.updates.length + node.pushes.length := by
  unfold take
  cases hupdates : node.updates with
  | cons set updates =>
      refine ⟨_, rfl, ?_⟩
      simp only [List.length_cons]
      omega
  | nil =>
      cases hpushes : node.pushes with
      | cons set pushes =>
          refine ⟨_, rfl, ?_⟩
          simp only [List.length_cons]
          omega
      | nil => exact absurd ⟨hupdates, hpushes⟩ h

theorem exists_drains (defaultBind : Option IpAddr) (env : Surroundings) (node : Node) :
    ∃ final, node.Drains defaultBind final := by
  by_cases hdrained : node.Drained
  · exact ⟨node, [], rfl, hdrained⟩
  · obtain ⟨next, htake, hless⟩ := exists_take defaultBind env hdrained
    obtain ⟨final, envs, hrun, hfinal⟩ := exists_drains defaultBind env next
    refine ⟨final, env :: envs, ?_, hfinal⟩
    exact Option.bind_eq_some_iff.2 ⟨next, htake, hrun⟩
termination_by node.updates.length + node.pushes.length

theorem reload_of_noop {disk : RuleSet} (h : (node.watched.diff disk).isNoop = true) :
    node.reload (some disk) = node :=
  if_pos h

theorem reload_of_change {disk : RuleSet} (h : ¬(node.watched.diff disk).isNoop = true) :
    node.reload (some disk) = { node with watched := disk, updates := node.updates ++ [disk] } :=
  if_neg h

theorem newest_reload (node : Node) (disk : RuleSet) :
    (node.reload (some disk)).newest =
      if node.pushes = [] ∧ ¬(node.watched.diff disk).isNoop then disk else node.newest := by
  by_cases hnoop : (node.watched.diff disk).isNoop = true
  · rw [reload_of_noop hnoop, if_neg (fun h => h.2 hnoop)]
  · rw [reload_of_change hnoop]
    by_cases hpushes : node.pushes = []
    · rw [if_pos ⟨hpushes, hnoop⟩]
      simp [newest, hpushes]
    · rw [if_neg (fun h => hpushes h.1)]
      -- the queued push stays last
      obtain ⟨earlier, last, hlast⟩ := (List.eq_nil_or_concat' node.pushes).resolve_left hpushes
      simp only [newest, hlast, ← List.append_assoc, List.getLastD_concat]

/--
From any state, the supervisor drains its channels after a reload that loads
the set on disk, and then runs that set exactly when no push waited in the
channel and the worker saw a change against its own copy, or the supervisor was
to end with that set anyway.
-/
theorem reload_restores_iff {disk : RuleSet}
    (hreload : step defaultBind node (.reload (some disk)) = some next) :
    (∃ final, next.Drains defaultBind final) ∧
    ∀ final, next.Drains defaultBind final →
      (final.supervisor.currentSet = disk ↔
        (node.pushes = [] ∧ ¬(node.watched.diff disk).isNoop) ∨ node.newest = disk) := by
  have hnext : next = node.reload (some disk) := by
    simp only [step] at hreload
    split at hreload
    · exact (Option.some.inj hreload).symm
    · cases hreload
  refine ⟨exists_drains defaultBind obliging next, fun final hdrains => ?_⟩
  rw [currentSet_of_drains hdrains, hnext, newest_reload]
  by_cases h : node.pushes = [] ∧ ¬(node.watched.diff disk).isNoop = true
  · rw [if_pos h]
    exact ⟨fun _ => .inl h, fun _ => rfl⟩
  · rw [if_neg h]
    exact (or_iff_right h).symm

/--
The set on disk is running, another set is pushed and taken, and a reload of
the unchanged files sends nothing: the pushed set stays.
-/
theorem reload_of_unchanged_files_suppressed :
    ∃ node final,
      run (step none) (start straightSet)
        [.take obliging, .push shiftedSet, .take obliging, .reload (some straightSet)] =
          some node ∧
      node.Drains none final ∧ final.supervisor.currentSet ≠ straightSet := by
  have hnoop : (straightSet.diff straightSet).isNoop = true := by decide
  let supervisor := (Supervisor.start.applySet none obliging straightSet).applySet none obliging
    shiftedSet
  have hreload : reload ⟨straightSet, [], [], supervisor⟩ (some straightSet) =
      ⟨straightSet, [], [], supervisor⟩ := reload_of_noop hnoop
  refine ⟨_, _, congrArg some hreload, ⟨[], rfl, rfl, rfl⟩, ?_⟩
  intro h
  exact absurd (congrArg RuleSet.rules h) (by decide)

theorem reload_restores_changed_files :
    ∃ node next final,
      run (step none) (start straightSet)
        [.take obliging, .push shiftedSet, .take obliging] = some node ∧
      step none node (.reload (some crossedSet)) = some next ∧
      next.Drains none final ∧ final.supervisor.currentSet = crossedSet := by
  have hchange : ¬(straightSet.diff crossedSet).isNoop = true := by decide
  let node : Node := ⟨straightSet, [], [],
    (Supervisor.start.applySet none obliging straightSet).applySet none obliging shiftedSet⟩
  have hreload : step none node (.reload (some crossedSet)) =
      some ⟨crossedSet, [crossedSet], [], node.supervisor⟩ :=
    congrArg some (reload_of_change hchange)
  have hdrains : Drains none ⟨crossedSet, [crossedSet], [], node.supervisor⟩
      ⟨crossedSet, [], [], node.supervisor.applySet none obliging crossedSet⟩ :=
    ⟨[obliging], rfl, rfl, rfl⟩
  exact ⟨node, _, _, rfl, hreload, hdrains,
    ((reload_restores_iff hreload).2 _ hdrains).2 (.inl ⟨rfl, hchange⟩)⟩

end Node

end Yggdrasil.Rules
