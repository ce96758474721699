import Yggdrasil.Rules.ReloadTrigger

/-!
# The bridge from filesystem notifications

A notification that finds a trigger pending needs none of its own.  The bridge
tells a full channel from a closed one by a look at its capacity, and the worker
may have emptied the channel by then.
-/

namespace Yggdrasil.Rules.RuleWatcher

open Foundation Ratatoskr Proxy
open Yggdrasil.Proxy.Supervisor (obliging straightSet)

variable {defaultBind : Option IpAddr} {watcher next final : RuleWatcher} {event : WatchEvent}

/-- The worker takes the pending trigger between the bridge's failed send and its look. -/
def Misjudges (watcher : RuleWatcher) (event : WatchEvent) : Prop :=
  event = .bridge ∧ watcher.bridge = .looking ∧ watcher.slot = false ∧
    watcher.worker.serves = true

def Bridged (watcher : RuleWatcher) : Prop :=
  watcher.bridge = .stopped → watcher.notifyOpen = false ∨ watcher.worker.serves = false

theorem closed_step (h : step defaultBind watcher event = some next) :
    (watcher.notifyOpen = false → next.notifyOpen = false) ∧
      (watcher.worker.serves = false → next.worker.serves = false) := by
  rcases step_cases h with ⟨loaded, -, hwork⟩ | ⟨-, hbridge⟩ | houtside
  · obtain ⟨-, hopen, hserves⟩ := work_frame hwork
    exact ⟨fun hclosed => hopen.trans hclosed, hserves⟩
  · obtain ⟨hworker, -, -, -, hopen⟩ := bridge_frame hbridge
    exact ⟨fun hclosed => hopen.trans hclosed, fun hgone => hworker ▸ hgone⟩
  · exact ⟨houtside.closed, fun hgone => houtside.worker ▸ hgone⟩

theorem bridge_step (h : step defaultBind watcher event = some next) :
    next.bridge = .stopped → watcher.bridge = .stopped ∨
      (event = .bridge ∧ watcher.bridge = .receiving ∧ watcher.notifications = [] ∧
        watcher.notifyOpen = false) ∨
      (event = .bridge ∧ watcher.bridge = .looking ∧ watcher.slot = false) := by
  intro hstopped
  rcases step_cases h with ⟨loaded, -, hwork⟩ | ⟨hevent, hbridge⟩ | houtside
  · exact .inl ((work_frame hwork).1.symm.trans hstopped)
  · right
    grind [bridgeNotifyEvents]
  · exact .inl (houtside.bridge.symm.trans hstopped)

theorem bridged_step (hbridged : watcher.Bridged)
    (hguard : watcher.Misjudges event → watcher.notifyOpen = false)
    (h : step defaultBind watcher event = some next) : next.Bridged := by
  intro hstopped
  obtain ⟨hnotify, hworker⟩ := closed_step h
  rcases bridge_step h hstopped with hbefore | ⟨-, -, -, hclosed⟩ | ⟨hevent, hlooking, hempty⟩
  · rcases hbridged hbefore with hclosed | hclosed
    · exact .inl (hnotify hclosed)
    · exact .inr (hworker hclosed)
  · exact .inl (hnotify hclosed)
  · by_cases hserves : watcher.worker.serves = true
    · exact .inl (hnotify (hguard ⟨hevent, hlooking, hempty, hserves⟩))
    · exact .inr (hworker (by simpa using hserves))

theorem notifyOpen_of_misjudges (hmisjudges : watcher.Misjudges event)
    (hbridged : ∀ next, step defaultBind watcher event = some next → next.Bridged) :
    watcher.notifyOpen = false := by
  obtain ⟨rfl, hlooking, hempty, hserves⟩ := hmisjudges
  have hstep : step defaultBind watcher .bridge = some { watcher with bridge := .stopped } := by
    simp [step, bridgeNotifyEvents, hlooking, hempty]
  rcases hbridged _ hstep rfl with hclosed | hclosed
  · exact hclosed
  · simp [hserves] at hclosed

/-- A reload is on its way, or nobody will answer it. -/
def Pending (watcher : RuleWatcher) : Prop :=
  watcher.slot = true ∨ watcher.worker = .triggered ∨ watcher.bridge = .sending ∨
    (∃ batch ∈ watcher.notifications, batch.reloads = true) ∨ watcher.worker.serves = false

structure Heard (watcher : RuleWatcher) : Prop where
  earlier : ∀ loads ∈ watcher.delivered, loads ≤ watcher.started
  answered : (∀ loads ∈ watcher.delivered, loads < watcher.started) ∨ watcher.Pending
  drained : watcher.bridge = .stopped →
    watcher.worker.serves = false ∨ watcher.notifyOpen = false ∧ watcher.notifications = []

theorem heard_start (initial : RuleSet) : (start initial).Heard := by
  constructor <;> simp [start]

theorem heard_work {loaded : Option RuleSet} (hheard : watcher.Heard)
    (h : watcher.work loaded = some next) : next.Heard := by
  obtain ⟨hearlier, hanswered, hdrained⟩ := hheard
  cases hworker : watcher.worker <;> simp only [work, recv, hworker] at h <;>
    simp only [Pending, hworker, Worker.serves] at hanswered hdrained <;>
    constructor <;> grind [Pending, Worker.serves]

theorem heard_bridge (hheard : watcher.Heard) (hguard : ¬ watcher.Misjudges .bridge)
    (h : watcher.bridgeNotifyEvents = some next) : next.Heard := by
  obtain ⟨hearlier, hanswered, hdrained⟩ := hheard
  cases hbridge : watcher.bridge <;> simp only [bridgeNotifyEvents, hbridge] at h
  case receiving => constructor <;> grind [Pending]
  case sending => constructor <;> grind [Pending, accepts]
  case looking =>
      -- an empty slot is left only by a worker that is gone
      have hgone : watcher.slot = false → watcher.worker.serves = false := by
        intro hempty
        by_contra hserves
        exact hguard ⟨rfl, hbridge, hempty, by simpa using hserves⟩
      constructor <;> grind [Pending]
  case stopped => cases h

theorem heard_deliver (hheard : watcher.Heard) (hopen : watcher.notifyOpen = true)
    (batch : NotifyResult) : (watcher.deliver batch).Heard := by
  obtain ⟨hearlier, hanswered, hdrained⟩ := hheard
  constructor <;> grind [deliver, Pending]

theorem heard_step (hheard : watcher.Heard) (hguard : ¬ watcher.Misjudges event)
    (h : step defaultBind watcher event = some next) : next.Heard := by
  cases event with
  | work loaded => exact heard_work hheard h
  | bridge => exact heard_bridge hheard hguard h
  | deliver batch =>
      simp only [step, Option.ite_none_right_eq_some, Option.some.injEq] at h
      exact h.2 ▸ heard_deliver hheard h.1 batch
  | wait id elapsed =>
      obtain ⟨loads, wait, wait', slot, -, -, hslot, rfl⟩ := forceReloadAndWait_cases h
      obtain ⟨hearlier, hanswered, hdrained⟩ := hheard
      exact ⟨hearlier, by grind [Pending], hdrained⟩
  | request =>
      obtain ⟨slot, hslot, hforce⟩ := forceReload_cases watcher
      simp only [step, hforce, Option.ite_none_right_eq_some, Option.some.injEq] at h
      obtain ⟨-, rfl⟩ := h
      obtain ⟨hearlier, hanswered, hdrained⟩ := hheard
      exact ⟨hearlier, by grind [Pending], hdrained⟩
  | closeNotify =>
      cases h
      exact ⟨hheard.earlier, hheard.answered, fun hs => (hheard.drained hs).imp_right (by simp)⟩
  | _ =>
      obtain ⟨hearlier, hanswered, hdrained⟩ := hheard
      constructor <;> grind [step, Pending, Option.map_eq_some_iff]

def Internal : WatchEvent → Prop
  | .bridge | .work _ | .take _ => True
  | _ => False

def Settled (defaultBind : Option IpAddr) (watcher : RuleWatcher) : Prop :=
  ∀ event, Internal event → step defaultBind watcher event = none

def backlog (watcher : RuleWatcher) : Nat :=
  8 * watcher.notifications.length + watcher.bridge.backlog + (if watcher.slot then 6 else 0) +
    watcher.worker.backlog + watcher.node.updates.length + watcher.node.pushes.length

theorem backlog_work {loaded : Option RuleSet} (h : watcher.work loaded = some next) :
    next.backlog < watcher.backlog := by
  have hreload := Node.length_reload watcher.node loaded
  cases hworker : watcher.worker <;> simp only [work, recv, hworker] at h <;>
    simp only [backlog, hworker] <;> grind [Worker.backlog]

theorem backlog_bridge (h : watcher.bridgeNotifyEvents = some next) :
    next.backlog < watcher.backlog := by
  cases hbridge : watcher.bridge <;> simp only [bridgeNotifyEvents, hbridge] at h <;>
    simp only [backlog, hbridge] <;> grind [Bridge.backlog]

theorem backlog_step (hinternal : Internal event)
    (h : step defaultBind watcher event = some next) : next.backlog < watcher.backlog := by
  cases event with
  | work loaded => exact backlog_work h
  | bridge => exact backlog_bridge h
  | take env =>
      simp only [step, backlog] at h ⊢
      grind [Node.take]
  | _ => exact absurd hinternal (by simp [Internal])

theorem not_pending_of_settled (hheard : watcher.Heard) (hsettled : watcher.Settled defaultBind)
    (hserves : watcher.worker.serves = true) : ¬ watcher.Pending := by
  have hbridge : watcher.bridgeNotifyEvents = none := hsettled .bridge trivial
  have hwork : watcher.work none = none := hsettled (.work none) trivial
  have htake : step defaultBind watcher (.take obliging) = none := hsettled (.take obliging) trivial
  have hdrained := hheard.drained
  have hnotifications : watcher.notifications = [] := by
    grind [bridgeNotifyEvents]
  have hsending : watcher.bridge ≠ .sending := by
    grind [bridgeNotifyEvents]
  -- a worker that waits for room leaves the supervisor something to take
  have hidle : watcher.worker = .idle ∧ watcher.slot = false := by
    grind [work, recv, step, Node.take, Worker.serves, updatesCapacity]
  simp [Pending, hnotifications, hsending, hidle, Worker.serves]

def StartedSince (watcher : RuleWatcher) (loads : Nat) : Prop :=
  ∃ load, loads < load ∧ load ≤ watcher.started

theorem startedSince_of_settled (hheard : watcher.Heard) (hsettled : watcher.Settled defaultBind)
    (hserves : watcher.worker.serves = true) {loads : Nat} (hloads : loads ∈ watcher.delivered) :
    watcher.StartedSince loads := by
  have hanswered := hheard.answered.resolve_right (not_pending_of_settled hheard hsettled hserves)
  exact ⟨watcher.started, hanswered loads hloads, le_rfl⟩

/--
All along a run the bridge is in its loop while its channels are open exactly
when the worker never takes the pending trigger between a failed send and the
look at the capacity, as long as the source of notifications is open.

Where it never does so at all, every notification is answered: left to
themselves bridge, worker and supervisor come to rest within a bound, and
at rest, with the worker still serving, a load has started after each
notification that was delivered.
-/
theorem bridge_stays_iff (defaultBind : Option IpAddr) (initial : RuleSet)
    (events : List WatchEvent) :
    ((∀ before reached, before <+: events →
        run (step defaultBind) (start initial) before = some reached → reached.Bridged) ↔
      Along (step defaultBind)
        (fun watcher event => watcher.Misjudges event → watcher.notifyOpen = false)
        (start initial) events) ∧
    (Along (step defaultBind) (fun watcher event => ¬ watcher.Misjudges event) (start initial)
        events →
      ∀ final, run (step defaultBind) (start initial) events = some final →
        (∀ more later, (∀ event ∈ more, Internal event) →
          run (step defaultBind) final more = some later → more.length ≤ final.backlog) ∧
        (final.Settled defaultBind → final.worker.serves = true →
          ∀ loads ∈ final.delivered, final.StartedSince loads)) := by
  constructor
  · have hstart : (start initial).Bridged := by simp [Bridged, start]
    exact reached_iff_along (step defaultBind)
      (fun _ _ _ hbridged hguard h => bridged_step hbridged hguard h) (fun _ hbridged => hbridged)
      (fun _ _ _ hall hmisjudges => notifyOpen_of_misjudges hmisjudges hall) hstart events
  · intro hguard final hrun
    have hheard : final.Heard :=
      run_invariant_of_guard (step defaultBind) (fun _ _ _ hs hg h => heard_step hs hg h)
        (heard_start initial) hguard hrun
    constructor
    · intro more later hinternal hmore
      exact length_le_of_rank (step defaultBind) (fun _ _ _ hi h => backlog_step hi h) hinternal
        hmore
    · intro hsettled hserves loads hloads
      exact startedSince_of_settled hheard hsettled hserves hloads

theorem settled_of_idle (hbridge : watcher.bridgeNotifyEvents = none)
    (hworker : watcher.worker = .idle) (hslot : watcher.slot = false)
    (hhandles : watcher.handles = true) (hupdates : watcher.node.updates = [])
    (hpushes : watcher.node.pushes = []) : watcher.Settled defaultBind := by
  intro event hinternal
  cases event with
  | bridge => exact hbridge
  | work loaded => simp [step, work, recv, hworker, hslot, hhandles]
  | take env => simp [step, Node.take, hupdates, hpushes]
  | _ => cases hinternal

/--
The bridge finds the slot full, the worker empties it, and the bridge takes the
free slot for a closed channel.  The next notification is never answered.
-/
theorem bridge_stops_while_worker_serves :
    ∃ final, run (step none) (start straightSet)
        [.deliver (.ok ["a.toml"]), .bridge, .bridge, .deliver (.ok ["b.toml"]), .bridge, .bridge,
          .work none, .work none, .bridge, .work none, .deliver (.ok ["c.toml"]),
          .work (some straightSet), .work none, .take obliging] = some final ∧
      ¬ final.Bridged ∧ final.Settled none ∧ final.worker.serves = true ∧
      1 ∈ final.delivered ∧ ¬ final.StartedSince 1 := by
  refine ⟨_, rfl, ?_, settled_of_idle rfl rfl rfl rfl rfl rfl, rfl, ?_, ?_⟩
  · intro hbridged
    rcases hbridged rfl with hclosed | hclosed <;> cases hclosed
  · decide
  · rintro ⟨load, hlt, hle⟩
    exact absurd hle (Nat.not_le.2 hlt)

theorem bridge_answers_one_notification :
    ∃ events final, run (step none) (start straightSet) events = some final ∧
      final.Settled none ∧ final.delivered = [0, 0] ∧
      ∀ loads ∈ final.delivered, final.StartedSince loads := by
  -- the second notification finds the trigger of the first
  let events : List WatchEvent :=
    [.deliver (.ok ["a.toml"]), .bridge, .bridge, .deliver (.ok ["b.toml"]), .bridge, .bridge,
      .bridge, .work none, .work none, .work none, .work (some straightSet), .work none,
      .take obliging]
  have hguard : Along (step none) (fun watcher event => ¬ watcher.Misjudges event)
      (start straightSet) events := by
    have hnever : ∀ watcher event, watcher.bridge ≠ .looking ∨ watcher.slot = true →
        ¬ Misjudges watcher event := by
      rintro watcher event (hbridge | hslot) h
      · exact hbridge h.2.1
      · exact absurd (hslot.symm.trans h.2.2.1) (by decide)
    iterate 13 refine along_cons _ (hnever _ _ (by decide)) rfl ?_
    trivial
  have hserved := (bridge_stays_iff none straightSet events).2 hguard
  refine ⟨events, _, rfl, settled_of_idle rfl rfl rfl rfl rfl rfl, rfl, ?_⟩
  exact (hserved _ rfl).2 (settled_of_idle rfl rfl rfl rfl rfl rfl) rfl

end Yggdrasil.Rules.RuleWatcher
