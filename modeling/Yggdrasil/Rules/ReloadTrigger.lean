import Yggdrasil.Rules.Watcher

/-!
# Reload triggers

A channel of one slot stands between those who ask for a reload and the worker
that loads the rule files.  The bridge thread fills the slot for notifications
of the filesystem, and `force_reload` fills it on request; where a trigger is
already pending another one adds nothing.  After every load the worker moves a
counter, and `force_reload_and_wait` waits for the counter to move.

Every access to a channel is a step of its own.  Loads are numbered in the
order they start, and the worker runs one at a time.
-/

namespace Yggdrasil.Rules

open Foundation Ratatoskr Proxy

abbrev NotifyResult := Except String (List String)

/-- An empty batch is skipped; an error still asks for a reload. -/
def NotifyResult.reloads : NotifyResult → Bool
  | .ok events => !events.isEmpty
  | .error _ => true

inductive Bridge where
  | receiving
  | sending
  /-- `try_send` has failed, and `capacity` is to tell why. -/
  | looking
  | stopped
  deriving DecidableEq, Repr

def Bridge.backlog : Bridge → Nat
  | .receiving => 1
  | .sending => 8
  | .looking => 2
  | .stopped => 0

inductive Worker where
  | starting
  | idle
  | triggered
  | loading
  | sending
  | bumping
  /-- Out of its loop: the reload channel is closed, its slot not yet emptied. -/
  | leaving
  | exited
  deriving DecidableEq, Repr

namespace Worker

def serves : Worker → Bool
  | .leaving | .exited => false
  | _ => true

def inLoop : Worker → Bool
  | .starting | .leaving | .exited => false
  | _ => true

def backlog : Worker → Nat
  | .starting => 3
  | .idle => 2
  | .triggered => 7
  | .loading => 6
  | .sending => 4
  | .bumping => 3
  | .leaving => 1
  | .exited => 0

end Worker

inductive Wait where
  | called
  | borrowed (seen : Nat)
  | waiting (seen : Nat)
  | woken
  | returned (generation : UInt64)
  | elapsed
  deriving DecidableEq, Repr

structure Caller where
  loads : Nat
  wait : Wait
  deriving DecidableEq, Repr

def Caller.done (caller : Caller) : Bool :=
  match caller.wait with
  | .returned _ | .elapsed => true
  | _ => false

structure RuleWatcher where
  node : Node
  updatesOpen : Bool
  handles : Bool
  notifyOpen : Bool
  notifications : List NotifyResult
  bridge : Bridge
  slot : Bool
  worker : Worker
  completions : Nat
  callers : List Caller
  started : Nat
  finished : Nat
  /-- For each notification that asks for a reload, how many loads had started by then. -/
  delivered : List Nat

inductive WatchEvent where
  | deliver (batch : NotifyResult)
  | closeNotify
  | dropUpdates
  | dropHandles
  | push (set : RuleSet)
  | take (env : Surroundings)
  | request
  | call
  /-- The next step of a call; its time may have run out. -/
  | wait (caller : Nat) (elapsed : Bool)
  | bridge
  | work (loaded : Option RuleSet)

def Node.sends (node : Node) : Option RuleSet → Bool
  | some next => !(node.watched.diff next).isNoop
  | none => false

theorem Node.length_reload (node : Node) (loaded : Option RuleSet) :
    (node.reload loaded).updates.length =
        node.updates.length + (if node.sends loaded then 1 else 0) ∧
      (node.reload loaded).pushes = node.pushes := by
  cases loaded with
  | none => simp [reload, sends]
  | some next =>
      simp only [reload, sends]
      split <;> simp_all

namespace RuleWatcher

def start (initial : RuleSet) : RuleWatcher where
  node := .start initial
  updatesOpen := true
  handles := true
  notifyOpen := true
  notifications := []
  bridge := .receiving
  slot := false
  worker := .starting
  completions := 0
  callers := []
  started := 0
  finished := 0
  delivered := []

def deliver (watcher : RuleWatcher) (batch : NotifyResult) : RuleWatcher :=
  { watcher with
    notifications := watcher.notifications ++ [batch]
    delivered := if batch.reloads then watcher.delivered ++ [watcher.started]
      else watcher.delivered }

def accepts (watcher : RuleWatcher) : Bool := watcher.worker.serves && !watcher.slot

def forceReload (watcher : RuleWatcher) : RuleWatcher :=
  if watcher.accepts then { watcher with slot := true } else watcher

def setCaller (watcher : RuleWatcher) (id loads : Nat) (wait : Wait) : RuleWatcher :=
  { watcher with callers := watcher.callers.set id ⟨loads, wait⟩ }

def generation (watcher : RuleWatcher) : UInt64 := .ofNat watcher.completions

/-- `changed` ends when the counter has moved, and as well when its sender is gone. -/
def changed (watcher : RuleWatcher) (seen : Nat) : Bool :=
  watcher.completions != seen || watcher.worker == .exited

def forceReloadAndWait (watcher : RuleWatcher) (id : Nat) (elapsed : Bool) : Option RuleWatcher :=
  match watcher.callers[id]? with
  | some ⟨loads, .called⟩ => some (watcher.setCaller id loads (.borrowed watcher.completions))
  | some ⟨loads, .borrowed seen⟩ =>
      some (watcher.forceReload.setCaller id loads (.waiting seen))
  | some ⟨loads, .waiting seen⟩ =>
      if watcher.changed seen then some (watcher.setCaller id loads .woken)
      else if elapsed then some (watcher.setCaller id loads .elapsed)
      else none
  | some ⟨loads, .woken⟩ => some (watcher.setCaller id loads (.returned watcher.generation))
  | _ => none

def bridgeNotifyEvents (watcher : RuleWatcher) : Option RuleWatcher :=
  match watcher.bridge with
  | .receiving =>
      match watcher.notifications with
      | batch :: rest =>
          some { watcher with
            notifications := rest
            bridge := if batch.reloads then .sending else .receiving }
      | [] => if watcher.notifyOpen then none else some { watcher with bridge := .stopped }
  | .sending =>
      if watcher.accepts then some { watcher with slot := true, bridge := .receiving }
      else some { watcher with bridge := .looking }
  -- no capacity left is taken for a pending trigger, anything else for a closed channel
  | .looking => some { watcher with bridge := if watcher.slot then .receiving else .stopped }
  | .stopped => none

def recv (watcher : RuleWatcher) : Option RuleWatcher :=
  if watcher.slot then some { watcher with slot := false, worker := .triggered }
  else if watcher.handles || watcher.bridge != .stopped then none
  else some { watcher with worker := .leaving }

def work (watcher : RuleWatcher) (loaded : Option RuleSet) : Option RuleWatcher :=
  match watcher.worker with
  | .starting =>
      some { watcher with worker := if watcher.updatesOpen then .idle else .leaving }
  | .idle => watcher.recv
  | .triggered => some { watcher with worker := .loading, started := watcher.started + 1 }
  | .loading =>
      some { watcher with
        node := watcher.node.reload loaded
        finished := watcher.finished + 1
        worker := if watcher.node.sends loaded then .sending else .bumping }
  | .sending =>
      if watcher.updatesOpen then
        if watcher.node.updates.length ≤ updatesCapacity then
          some { watcher with worker := .bumping }
        else none
      -- the receiver was dropped, and the counter stays where it is
      else some { watcher with worker := .leaving }
  | .bumping =>
      some { watcher with worker := .idle, completions := watcher.completions + 1 }
  | .leaving => some { watcher with worker := .exited, slot := false }
  | .exited => none

def step (defaultBind : Option IpAddr) (watcher : RuleWatcher) : WatchEvent → Option RuleWatcher
  | .deliver batch => if watcher.notifyOpen then some (watcher.deliver batch) else none
  | .closeNotify => some { watcher with notifyOpen := false }
  | .dropUpdates => some { watcher with updatesOpen := false }
  -- a call borrows the handle it was made on
  | .dropHandles =>
      if watcher.callers.all Caller.done then some { watcher with handles := false } else none
  | .push set => (watcher.node.push set).map fun node => { watcher with node := node }
  | .take env =>
      if watcher.updatesOpen then
        (watcher.node.take defaultBind env).map fun node => { watcher with node := node }
      else none
  | .request => if watcher.handles then some watcher.forceReload else none
  | .call =>
      if watcher.handles then
        some { watcher with callers := watcher.callers ++ [⟨watcher.started, .called⟩] }
      else none
  | .wait id elapsed => watcher.forceReloadAndWait id elapsed
  | .bridge => watcher.bridgeNotifyEvents
  | .work loaded => watcher.work loaded

variable {defaultBind : Option IpAddr} {watcher next final : RuleWatcher} {event : WatchEvent}

/-! ## What a step changes -/

variable {id loads : Nat} {wait : Wait}

@[simp] theorem setCaller_self (h : id < watcher.callers.length) :
    (watcher.setCaller id loads wait).callers[id]? = some ⟨loads, wait⟩ := by
  simp [setCaller, h]

inductive Advances (watcher : RuleWatcher) : Wait → Wait → Prop where
  | borrow : Advances watcher .called (.borrowed watcher.completions)
  | trigger (seen : Nat) : Advances watcher (.borrowed seen) (.waiting seen)
  | wake (seen : Nat) : watcher.changed seen = true → Advances watcher (.waiting seen) .woken
  | expire (seen : Nat) : Advances watcher (.waiting seen) .elapsed
  | read : Advances watcher .woken (.returned watcher.generation)

theorem forceReload_cases (watcher : RuleWatcher) :
    ∃ slot, (slot = watcher.slot ∨ slot = true ∧ watcher.worker.serves = true) ∧
      watcher.forceReload = { watcher with slot := slot } := by
  unfold forceReload accepts
  split
  · next h => exact ⟨true, .inr ⟨rfl, (Bool.and_eq_true_iff.1 h).1⟩, rfl⟩
  · exact ⟨watcher.slot, .inl rfl, rfl⟩

theorem forceReloadAndWait_cases {elapsed : Bool}
    (h : watcher.forceReloadAndWait id elapsed = some next) :
    ∃ loads wait wait' slot, watcher.callers[id]? = some ⟨loads, wait⟩ ∧
      Advances watcher wait wait' ∧
      (slot = watcher.slot ∨ slot = true ∧ watcher.worker.serves = true) ∧
      next = { watcher with slot := slot, callers := watcher.callers.set id ⟨loads, wait'⟩ } := by
  unfold forceReloadAndWait setCaller at h
  split at h
  · next loads hcaller =>
      exact ⟨loads, _, _, _, hcaller, .borrow, .inl rfl, (Option.some.inj h).symm⟩
  · next loads seen hcaller =>
      obtain ⟨slot, hslot, hforce⟩ := forceReload_cases watcher
      rw [hforce] at h
      exact ⟨loads, _, _, slot, hcaller, .trigger seen, hslot, (Option.some.inj h).symm⟩
  · next loads seen hcaller =>
      split at h
      · next hchanged =>
          exact ⟨loads, _, _, _, hcaller, .wake seen hchanged, .inl rfl, (Option.some.inj h).symm⟩
      · split at h
        · exact ⟨loads, _, _, _, hcaller, .expire seen, .inl rfl, (Option.some.inj h).symm⟩
        · cases h
  · next loads hcaller =>
      exact ⟨loads, _, _, _, hcaller, .read, .inl rfl, (Option.some.inj h).symm⟩
  · cases h

structure Outside (watcher next : RuleWatcher) : Prop where
  bridge : next.bridge = watcher.bridge
  worker : next.worker = watcher.worker
  completions : next.completions = watcher.completions
  started : next.started = watcher.started
  finished : next.finished = watcher.finished
  closed : watcher.notifyOpen = false → next.notifyOpen = false

theorem step_cases (h : step defaultBind watcher event = some next) :
    (∃ loaded, event = .work loaded ∧ watcher.work loaded = some next) ∨
      (event = .bridge ∧ watcher.bridgeNotifyEvents = some next) ∨ Outside watcher next := by
  cases event with
  | work loaded => exact .inl ⟨loaded, rfl, h⟩
  | bridge => exact .inr (.inl ⟨rfl, h⟩)
  | wait id elapsed =>
      obtain ⟨loads, wait, wait', slot, -, -, -, rfl⟩ := forceReloadAndWait_cases h
      exact .inr (.inr ⟨rfl, rfl, rfl, rfl, rfl, fun hclosed => hclosed⟩)
  | _ =>
      right
      right
      constructor <;> grind [step, deliver, forceReload, Option.map_eq_some_iff]

theorem work_frame {loaded : Option RuleSet} (h : watcher.work loaded = some next) :
    next.bridge = watcher.bridge ∧ next.notifyOpen = watcher.notifyOpen ∧
      (watcher.worker.serves = false → next.worker.serves = false) := by
  grind [work, recv, Worker.serves]

theorem bridge_frame (h : watcher.bridgeNotifyEvents = some next) :
    next.worker = watcher.worker ∧ next.completions = watcher.completions ∧
      next.started = watcher.started ∧ next.finished = watcher.finished ∧
      next.notifyOpen = watcher.notifyOpen := by
  grind [bridgeNotifyEvents]

theorem work_or_same (h : step defaultBind watcher event = some next) :
    (∃ loaded, watcher.work loaded = some next) ∨
      next.worker = watcher.worker ∧ next.completions = watcher.completions ∧
        next.started = watcher.started ∧ next.finished = watcher.finished := by
  rcases step_cases h with ⟨loaded, -, hwork⟩ | ⟨-, hbridge⟩ | houtside
  · exact .inl ⟨loaded, hwork⟩
  · obtain ⟨hworker, hcompletions, hstarted, hfinished, -⟩ := bridge_frame hbridge
    exact .inr ⟨hworker, hcompletions, hstarted, hfinished⟩
  · exact .inr ⟨houtside.worker, houtside.completions, houtside.started, houtside.finished⟩

def Counted (watcher : RuleWatcher) : Prop :=
  match watcher.worker with
  | .starting | .idle | .triggered =>
      watcher.started = watcher.finished ∧ watcher.finished = watcher.completions
  | .loading =>
      watcher.started = watcher.finished + 1 ∧ watcher.finished = watcher.completions
  | .sending | .bumping =>
      watcher.started = watcher.finished ∧ watcher.finished = watcher.completions + 1
  | .leaving | .exited => True

theorem counted_work {loaded : Option RuleSet} (hcounted : watcher.Counted)
    (h : watcher.work loaded = some next) : next.Counted := by
  cases hworker : watcher.worker <;>
    simp only [Counted, work, recv, hworker] at hcounted h ⊢ <;> grind

theorem loads_mono (h : step defaultBind watcher event = some next) :
    watcher.started ≤ next.started ∧ watcher.finished ≤ next.finished := by
  rcases work_or_same h with ⟨loaded, hwork⟩ | ⟨-, -, hstarted, hfinished⟩
  · grind [work, recv]
  · omega

theorem callers_step (h : step defaultBind watcher event = some next) :
    (next.callers = watcher.callers ∧
      (next.handles = watcher.handles ∨ ∀ caller ∈ watcher.callers, caller.done = true)) ∨
    (next.callers = watcher.callers ++ [⟨watcher.started, .called⟩] ∧
      watcher.handles = true ∧ next.handles = true) ∨
    ∃ id loads wait wait', watcher.callers[id]? = some ⟨loads, wait⟩ ∧
      Advances watcher wait wait' ∧ next.callers = watcher.callers.set id ⟨loads, wait'⟩ ∧
        next.handles = watcher.handles := by
  cases event with
  | wait id elapsed =>
      obtain ⟨loads, wait, wait', slot, hcaller, hadvances, -, rfl⟩ := forceReloadAndWait_cases h
      exact .inr (.inr ⟨id, loads, wait, wait', hcaller, hadvances, rfl, rfl⟩)
  | bridge =>
      left
      grind [step, bridgeNotifyEvents]
  | work loaded =>
      left
      grind [step, work, recv]
  | call =>
      right
      left
      grind [step]
  | _ =>
      left
      grind [step, deliver, forceReload, Option.map_eq_some_iff, List.all_eq_true]

theorem not_done_of_advances {wait' : Wait} (h : Advances watcher wait wait') :
    Caller.done ⟨loads, wait⟩ = false := by
  cases h <;> rfl

theorem caller_step (hcaller : watcher.callers[id]? = some ⟨loads, wait⟩)
    (h : step defaultBind watcher event = some next) :
    next.callers[id]? = some ⟨loads, wait⟩ ∨
      ∃ wait', Advances watcher wait wait' ∧ next.callers[id]? = some ⟨loads, wait'⟩ := by
  have hlt := (List.getElem?_eq_some_iff.1 hcaller).1
  rcases callers_step h with ⟨hcallers, -⟩ | ⟨hcallers, -⟩ |
    ⟨moved, loads', before, after, hbefore, hadvances, hcallers, -⟩
  · exact .inl (hcallers ▸ hcaller)
  · left
    rw [hcallers, List.getElem?_append_left hlt]
    exact hcaller
  · by_cases hid : moved = id
    · subst hid
      right
      simp only [hcaller, Option.some.injEq, Caller.mk.injEq] at hbefore
      refine ⟨after, hbefore.2 ▸ hadvances, ?_⟩
      rw [hcallers, List.getElem?_set_self hlt, hbefore.1]
    · left
      rw [hcallers, List.getElem?_set_ne hid]
      exact hcaller

structure Consistent (watcher : RuleWatcher) : Prop where
  counted : watcher.Counted
  earlier : ∀ caller ∈ watcher.callers, caller.loads ≤ watcher.started
  held : watcher.handles = false → ∀ caller ∈ watcher.callers, caller.done = true

theorem consistent_start (initial : RuleSet) : (start initial).Consistent := by
  refine ⟨⟨rfl, rfl⟩, ?_, ?_⟩ <;> simp [start]

theorem counted_step (hcounted : watcher.Counted)
    (h : step defaultBind watcher event = some next) : next.Counted := by
  rcases work_or_same h with ⟨loaded, hwork⟩ | ⟨hworker, hcompletions, hstarted, hfinished⟩
  · exact counted_work hcounted hwork
  · unfold Counted
    rw [hworker, hcompletions, hstarted, hfinished]
    exact hcounted

theorem consistent_step (hconsistent : watcher.Consistent)
    (h : step defaultBind watcher event = some next) : next.Consistent := by
  have hmono := (loads_mono h).1
  have hearlier : ∀ caller ∈ watcher.callers, caller.loads ≤ next.started :=
    fun caller hcaller => (hconsistent.earlier caller hcaller).trans hmono
  have hcounted := counted_step hconsistent.counted h
  rcases callers_step h with ⟨hcallers, hhandles⟩ | ⟨hcallers, -, hhandles⟩ |
    ⟨id, loads, wait, wait', hcaller, hadvances, hcallers, hhandles⟩
  · refine ⟨hcounted, hcallers ▸ hearlier, fun hdropped => ?_⟩
    rw [hcallers]
    rcases hhandles with hhandles | hdone
    · exact hconsistent.held (hhandles ▸ hdropped)
    · exact hdone
  · refine ⟨hcounted, ?_, fun hdropped => by simp [hhandles] at hdropped⟩
    simp only [hcallers, List.forall_mem_append, List.forall_mem_singleton]
    exact ⟨hearlier, hmono⟩
  · have hmem := List.mem_of_getElem? hcaller
    refine ⟨hcounted, fun caller hmoved => ?_, fun hdropped => ?_⟩
    · rcases List.mem_or_eq_of_mem_set (hcallers ▸ hmoved) with hold | rfl
      · exact hearlier caller hold
      · exact hearlier ⟨loads, wait⟩ hmem
    · -- a call that still moves has its handle
      have hdone := hconsistent.held (hhandles ▸ hdropped) _ hmem
      simp [not_done_of_advances hadvances] at hdone

theorem consistent_run {initial : RuleSet} {events : List WatchEvent}
    (hrun : run (step defaultBind) (start initial) events = some watcher) : watcher.Consistent :=
  run_invariant _ (fun _ _ _ hs h => consistent_step hs h) (consistent_start initial) hrun

/-! ## The worker's part in the node -/

def Room (watcher : RuleWatcher) : Prop :=
  watcher.worker.serves = true → watcher.worker ≠ .sending →
    watcher.node.updates.length ≤ updatesCapacity

theorem room_start (initial : RuleSet) : (start initial).Room := by
  simp [Room, start, Node.start, updatesCapacity]

/-- What a step means for the node, if anything: the end of a load is its reload. -/
def nodeEvent (watcher : RuleWatcher) : WatchEvent → Option Event
  | .push set => some (.push set)
  | .take env => some (.take env)
  | .work loaded => if watcher.worker = .loading then some (.reload loaded) else none
  | _ => none

theorem room_step (hroom : watcher.Room) (h : step defaultBind watcher event = some next) :
    next.Room := by
  unfold Room at hroom ⊢
  cases event with
  | wait id elapsed =>
      obtain ⟨loads, wait, wait', slot, -, -, -, rfl⟩ := forceReloadAndWait_cases h
      exact hroom
  | bridge => grind [step, bridgeNotifyEvents]
  | work loaded =>
      have hreload := Node.length_reload watcher.node loaded
      grind [step, work, recv, Worker.serves]
  | _ => grind [step, deliver, forceReload, Option.map_eq_some_iff, Node.push, Node.take]

theorem node_step (hroom : watcher.Room) (h : step defaultBind watcher event = some next) :
    run (Node.step defaultBind) watcher.node (watcher.nodeEvent event).toList =
      some next.node := by
  cases event with
  | wait id elapsed =>
      obtain ⟨loads, wait, wait', slot, -, -, -, rfl⟩ := forceReloadAndWait_cases h
      rfl
  | bridge => grind [step, bridgeNotifyEvents, nodeEvent, run]
  | work loaded =>
      grind [step, work, recv, nodeEvent, run, Worker.serves, Node.step, Room]
  | _ => grind [step, deliver, forceReload, nodeEvent, run, Option.map_eq_some_iff, Node.step]

/-- A pushed set, and a load on request whose files do not parse. -/
def pushAndRequest : List WatchEvent :=
  [.push Proxy.Supervisor.straightSet, .request] ++ List.replicate 4 (.work none)

end RuleWatcher

end Yggdrasil.Rules
