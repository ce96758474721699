import Yggdrasil.Rules.ReloadTrigger

/-!
# Waiting for a reload

A call of `force_reload_and_wait` marks the completion counter, asks for a
reload and waits for the counter to move.  The counter moves for every load,
also for one that had started before the call, and the wait ends as well when
the worker is gone.
-/

namespace Yggdrasil.Rules.RuleWatcher

open Foundation Ratatoskr Proxy
open Yggdrasil.Proxy.Supervisor (straightSet crossedSet)

variable {defaultBind : Option IpAddr} {watcher next final : RuleWatcher} {event : WatchEvent}

def LoadedSince (watcher : RuleWatcher) (loads : Nat) : Prop :=
  ∃ load, loads < load ∧ load ≤ watcher.finished

variable {loads id seen : Nat}

theorem loadedSince_iff : watcher.LoadedSince loads ↔ loads < watcher.finished :=
  ⟨fun ⟨_, hlt, hle⟩ => hlt.trans_le hle, fun h => ⟨watcher.finished, h, le_rfl⟩⟩

theorem loadedSince_step (hloaded : watcher.LoadedSince loads)
    (h : step defaultBind watcher event = some next) : next.LoadedSince loads := by
  obtain ⟨load, hlt, hle⟩ := hloaded
  exact ⟨load, hlt, hle.trans (loads_mono h).2⟩

/--
The call has not seen the counter move, the worker is in its loop, and every
load from before the call is counted.
-/
structure Awaits (id loads : Nat) (watcher : RuleWatcher) : Prop where
  caller : watcher.callers[id]? = some ⟨loads, .borrowed watcher.completions⟩ ∨
    watcher.callers[id]? = some ⟨loads, .waiting watcher.completions⟩
  inLoop : watcher.worker.inLoop = true
  counted : loads ≤ watcher.completions

/-- Once its mark is taken, a call waits, has seen a load or has given up. -/
def Sound (id loads : Nat) (watcher : RuleWatcher) : Prop :=
  watcher.LoadedSince loads ∨ watcher.callers[id]? = some ⟨loads, .elapsed⟩ ∨
    watcher.Awaits id loads

theorem sound_iff_of_borrowed
    (hcaller : watcher.callers[id]? = some ⟨loads, .borrowed watcher.completions⟩) :
    watcher.Sound id loads ↔ watcher.LoadedSince loads ∨
      watcher.worker.inLoop = true ∧ loads ≤ watcher.completions := by
  constructor
  · rintro (hloaded | helapsed | hawaits)
    · exact .inl hloaded
    · simp [hcaller] at helapsed
    · exact .inr ⟨hawaits.inLoop, hawaits.counted⟩
  · rintro (hloaded | ⟨hloop, hcounted⟩)
    · exact .inl hloaded
    · exact .inr (.inr ⟨.inl hcaller, hloop, hcounted⟩)

theorem loadedSince_or_inLoop {loaded : Option RuleSet} (hcounted : watcher.Counted)
    (hhandles : watcher.handles = true) (hloop : watcher.worker.inLoop = true)
    (hloads : loads ≤ watcher.completions) (h : watcher.work loaded = some next) :
    next.LoadedSince loads ∨
      next.worker.inLoop = true ∧ next.completions = watcher.completions := by
  rw [loadedSince_iff]
  cases hworker : watcher.worker <;>
    simp only [Counted, work, recv, Worker.inLoop, hworker, reduceCtorEq] at hcounted h hloop ⊢ <;>
    grind [Worker.inLoop]

theorem not_changed_of_inLoop (hloop : watcher.worker.inLoop = true) :
    watcher.changed watcher.completions = false := by
  cases hworker : watcher.worker <;> simp_all [changed, Worker.inLoop]

theorem sound_of_awaits (hconsistent : watcher.Consistent) (hawaits : watcher.Awaits id loads)
    (h : step defaultBind watcher event = some next) : next.Sound id loads := by
  have hhandles : watcher.handles = true := by
    by_contra hdropped
    have hdone := hconsistent.held (by simpa using hdropped)
    rcases hawaits.caller with hcaller | hcaller <;>
      exact absurd (hdone _ (List.mem_of_getElem? hcaller)) (by simp [Caller.done])
  have hkept : next.LoadedSince loads ∨
      next.worker.inLoop = true ∧ next.completions = watcher.completions := by
    rcases work_or_same h with ⟨loaded, hwork⟩ | ⟨hworker, hcompletions, -⟩
    · exact loadedSince_or_inLoop hconsistent.counted hhandles hawaits.inLoop hawaits.counted hwork
    · exact .inr ⟨hworker ▸ hawaits.inLoop, hcompletions⟩
  rcases hkept with hloaded | ⟨hloop, hcompletions⟩
  · exact .inl hloaded
  right
  have hcounted : loads ≤ next.completions := hcompletions ▸ hawaits.counted
  rcases hawaits.caller with hcaller | hcaller
  · rcases caller_step hcaller h with hsame | ⟨wait', hadvances, hmoved⟩
    · exact .inr ⟨.inl (hcompletions ▸ hsame), hloop, hcounted⟩
    · cases hadvances with
      | trigger => exact .inr ⟨.inr (hcompletions ▸ hmoved), hloop, hcounted⟩
  · rcases caller_step hcaller h with hsame | ⟨wait', hadvances, hmoved⟩
    · exact .inr ⟨.inr (hcompletions ▸ hsame), hloop, hcounted⟩
    · cases hadvances with
      | wake _ hchanged => simp [not_changed_of_inLoop hawaits.inLoop] at hchanged
      | expire => exact .inl hmoved

theorem sound_step (hconsistent : watcher.Consistent) (hsound : watcher.Sound id loads)
    (h : step defaultBind watcher event = some next) : next.Sound id loads := by
  rcases hsound with hloaded | helapsed | hawaits
  · exact .inl (loadedSince_step hloaded h)
  · rcases caller_step helapsed h with hsame | ⟨wait', hadvances, -⟩
    · exact .inr (.inl hsame)
    · cases hadvances
  · exact sound_of_awaits hconsistent hawaits h

theorem sound_run {events : List WatchEvent} (hconsistent : watcher.Consistent)
    (hsound : watcher.Sound id loads)
    (hrun : run (step defaultBind) watcher events = some final) : final.Sound id loads :=
  (run_invariant _ (P := fun w => w.Consistent ∧ w.Sound id loads)
    (fun _ _ _ hs h => ⟨consistent_step hs.1 h, sound_step hs.1 hs.2 h⟩)
    ⟨hconsistent, hsound⟩ hrun).2

def Misled (defaultBind : Option IpAddr) (id loads : Nat) (watcher : RuleWatcher) : Prop :=
  ∃ events final generation, run (step defaultBind) watcher events = some final ∧
    final.callers[id]? = some ⟨loads, .returned generation⟩ ∧ ¬ final.LoadedSince loads

theorem misled_of_step (h : step defaultBind watcher event = some next)
    (hmisled : next.Misled defaultBind id loads) : watcher.Misled defaultBind id loads := by
  obtain ⟨events, final, generation, hrun, hrest⟩ := hmisled
  refine ⟨event :: events, final, generation, ?_, hrest⟩
  simpa [run, h] using hrun

theorem misled_of_changed (hcaller : watcher.callers[id]? = some ⟨loads, .borrowed seen⟩)
    (hloads : watcher.finished ≤ loads) (hchanged : watcher.changed seen = true) :
    watcher.Misled defaultBind id loads := by
  have hlt := (List.getElem?_eq_some_iff.1 hcaller).1
  have hforce : watcher.forceReload.callers.length = watcher.callers.length ∧
      watcher.forceReload.changed seen = watcher.changed seen ∧
      watcher.forceReload.finished = watcher.finished := by
    obtain ⟨slot, -, hforce⟩ := forceReload_cases watcher
    simp [hforce, changed]
  let triggered := watcher.forceReload.setCaller id loads (.waiting seen)
  let woken := triggered.setCaller id loads .woken
  have hlt' : id < triggered.callers.length := by
    simpa [triggered, setCaller, hforce.1] using hlt
  have hlt'' : id < woken.callers.length := by simpa [woken, setCaller] using hlt'
  have htrigger : step defaultBind watcher (.wait id false) = some triggered := by
    simp [step, forceReloadAndWait, hcaller, triggered]
  have hwake : step defaultBind triggered (.wait id false) = some woken := by
    have hwaiting : triggered.callers[id]? = some ⟨loads, .waiting seen⟩ :=
      setCaller_self (hforce.1 ▸ hlt)
    have hstill : triggered.changed seen = true := hforce.2.1.trans hchanged
    simp [step, forceReloadAndWait, hwaiting, hstill, woken]
  have hread : step defaultBind woken (.wait id false) =
      some (woken.setCaller id loads (.returned woken.generation)) := by
    have hwoken : woken.callers[id]? = some ⟨loads, .woken⟩ := setCaller_self hlt'
    simp [step, forceReloadAndWait, hwoken]
  -- the call runs to its end alone, and no load finishes meanwhile
  refine misled_of_step htrigger (misled_of_step hwake (misled_of_step hread ?_))
  refine ⟨[], _, woken.generation, rfl, setCaller_self hlt'', ?_⟩
  rw [loadedSince_iff]
  simp [setCaller, woken, triggered, hforce.2.2, hloads]

theorem misled_of_leaving (hcaller : watcher.callers[id]? = some ⟨loads, .borrowed seen⟩)
    (hloads : watcher.finished ≤ loads) (hworker : watcher.worker = .leaving) :
    watcher.Misled defaultBind id loads := by
  have hexit : step defaultBind watcher (.work none) =
      some { watcher with worker := .exited, slot := false } := by
    simp [step, work, hworker]
  refine misled_of_step hexit (misled_of_changed hcaller hloads ?_)
  simp [changed]

theorem misled_of_unsent (hcaller : watcher.callers[id]? = some ⟨loads, .borrowed seen⟩)
    (hloads : watcher.finished ≤ loads)
    (hworker : watcher.worker = .starting ∨ watcher.worker = .sending) :
    watcher.Misled defaultBind id loads := by
  have hdrop : step defaultBind watcher .dropUpdates =
      some { watcher with updatesOpen := false } := rfl
  have hleave : step defaultBind { watcher with updatesOpen := false } (.work none) =
      some { watcher with updatesOpen := false, worker := .leaving } := by
    rcases hworker with hworker | hworker <;> simp [step, work, hworker]
  exact misled_of_step hdrop (misled_of_step hleave (misled_of_leaving hcaller hloads rfl))

theorem misled_of_bumping
    (hcaller : watcher.callers[id]? = some ⟨loads, .borrowed watcher.completions⟩)
    (hloads : watcher.finished ≤ loads) (hworker : watcher.worker = .bumping) :
    watcher.Misled defaultBind id loads := by
  have hbump : step defaultBind watcher (.work none) =
      some { watcher with worker := .idle, completions := watcher.completions + 1 } := by
    simp [step, work, hworker]
  refine misled_of_step hbump (misled_of_changed hcaller hloads ?_)
  simp [changed]

theorem misled_of_loading
    (hcaller : watcher.callers[id]? = some ⟨loads, .borrowed watcher.completions⟩)
    (hloads : watcher.finished + 1 ≤ loads) (hworker : watcher.worker = .loading) :
    watcher.Misled defaultBind id loads := by
  have hfinish : step defaultBind watcher (.work none) =
      some { watcher with worker := .bumping, finished := watcher.finished + 1 } := by
    simp [step, work, hworker, Node.sends, Node.reload]
  exact misled_of_step hfinish (misled_of_bumping hcaller hloads rfl)

theorem misled_of_not_sound (hconsistent : watcher.Consistent)
    (hcaller : watcher.callers[id]? = some ⟨loads, .borrowed watcher.completions⟩)
    (hunsound : ¬ watcher.Sound id loads) : watcher.Misled defaultBind id loads := by
  have hloads : watcher.finished ≤ loads := by
    by_contra hlt
    exact hunsound (.inl (loadedSince_iff.2 (by omega)))
  have hlater : watcher.worker.inLoop = true → watcher.completions < loads := by
    intro hloop
    by_contra hle
    exact hunsound ((sound_iff_of_borrowed hcaller).2 (.inr ⟨hloop, by omega⟩))
  have hearlier : loads ≤ watcher.started :=
    hconsistent.earlier _ (List.mem_of_getElem? hcaller)
  have hcounted := hconsistent.counted
  cases hworker : watcher.worker <;>
    simp only [Counted, Worker.inLoop, hworker, forall_const] at hcounted hlater
  case starting => exact misled_of_unsent hcaller hloads (.inl hworker)
  case sending => exact misled_of_unsent hcaller hloads (.inr hworker)
  case loading => exact misled_of_loading hcaller (by omega) hworker
  case bumping => exact misled_of_bumping hcaller hloads hworker
  case leaving => exact misled_of_leaving hcaller hloads hworker
  case exited =>
      apply misled_of_changed hcaller hloads
      simp [changed, hworker]
  -- an idle or triggered worker has counted every load that started
  all_goals omega

/--
A call takes its mark of the completion counter.  Whenever it returns later, a
load that started after the call was made has finished, exactly if one has
finished by the time of the mark, or the worker is in its loop then and has
counted every load that started before the call.
-/
theorem reload_wait_sees_load_iff {initial : RuleSet} {events : List WatchEvent} {id loads : Nat}
    {elapsed : Bool} (hrun : run (step defaultBind) (start initial) events = some watcher)
    (hcalled : watcher.callers[id]? = some ⟨loads, .called⟩)
    (hmark : step defaultBind watcher (.wait id elapsed) = some next) :
    (∀ more final generation, run (step defaultBind) next more = some final →
      final.callers[id]? = some ⟨loads, .returned generation⟩ → final.LoadedSince loads) ↔
    watcher.LoadedSince loads ∨
      watcher.worker.inLoop = true ∧ loads ≤ watcher.completions := by
  have hlt := (List.getElem?_eq_some_iff.1 hcalled).1
  have hconsistent := consistent_step (consistent_run hrun) hmark
  have hnext : next = watcher.setCaller id loads (.borrowed watcher.completions) := by
    simp only [step, forceReloadAndWait, hcalled, Option.some.injEq] at hmark
    exact hmark.symm
  have hcaller : next.callers[id]? = some ⟨loads, .borrowed next.completions⟩ := by
    rw [hnext]
    exact setCaller_self hlt
  have hsound : next.Sound id loads ↔ watcher.LoadedSince loads ∨
      watcher.worker.inLoop = true ∧ loads ≤ watcher.completions := by
    rw [sound_iff_of_borrowed hcaller, hnext]
    rfl
  have hmisled : ¬ next.Sound id loads → next.Misled defaultBind id loads :=
    misled_of_not_sound hconsistent hcaller
  rw [← hsound]
  constructor
  · intro hall
    by_contra hunsound
    obtain ⟨more, final, generation, hmore, hreturned, hmissed⟩ :=
      hmisled hunsound
    exact hmissed (hall more final generation hmore hreturned)
  · intro hsound more final generation hmore hreturned
    rcases sound_run hconsistent hsound hmore with hloaded | helapsed | hawaits
    · exact hloaded
    · simp [hreturned] at helapsed
    · rcases hawaits.caller with hwaits | hwaits <;> simp [hreturned] at hwaits

/--
A load is running when the call is made, and its end wakes the call.  And once
the worker is gone the wait ends at once, with the counter as it was left.
-/
theorem reload_wait_misses_load :
    (∃ final, run (step none) (start straightSet)
        [.work none, .request, .work none, .work none, .call, .wait 0 false, .wait 0 false,
          .work (some straightSet), .work none, .wait 0 false, .wait 0 false] = some final ∧
      final.callers = [⟨1, .returned 1⟩] ∧ ¬ final.LoadedSince 1) ∧
    (∃ final, run (step none) (start straightSet)
        [.work none, .dropUpdates, .request, .work none, .work none, .work (some crossedSet),
          .work none, .work none, .call, .wait 0 false, .wait 0 false, .wait 0 false,
          .wait 0 false] = some final ∧
      final.callers = [⟨1, .returned 0⟩] ∧ ¬ final.LoadedSince 1) := by
  constructor
  · refine ⟨_, rfl, rfl, ?_⟩
    rw [loadedSince_iff]
    decide
  · refine ⟨_, rfl, rfl, ?_⟩
    rw [loadedSince_iff]
    decide

theorem reload_wait_sees_load_when_idle :
    ∃ watcher next, run (step none) (start straightSet) [.work none, .call] = some watcher ∧
      step none watcher (.wait 0 false) = some next ∧
      (∃ final, run (step none) next [.wait 0 false, .work none, .work none,
          .work (some straightSet), .work none, .wait 0 false, .wait 0 false] = some final ∧
        final.callers[0]? = some ⟨0, .returned 1⟩) ∧
      ∀ more final generation, run (step none) next more = some final →
        final.callers[0]? = some ⟨0, .returned generation⟩ → final.LoadedSince 0 := by
  let watcher : RuleWatcher :=
    { start straightSet with worker := .idle, callers := [⟨0, .called⟩] }
  have hrun : run (step none) (start straightSet) [.work none, .call] = some watcher := rfl
  have hmark : step none watcher (.wait 0 false) = some (watcher.setCaller 0 0 (.borrowed 0)) :=
    rfl
  have hcounted : watcher.worker.inLoop = true ∧ 0 ≤ watcher.completions := ⟨rfl, Nat.zero_le _⟩
  refine ⟨watcher, _, hrun, hmark, ⟨_, rfl, rfl⟩, ?_⟩
  exact (reload_wait_sees_load_iff hrun rfl hmark).2 (.inr hcounted)

end Yggdrasil.Rules.RuleWatcher
