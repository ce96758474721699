import Yggdrasil.Acme.Storage

/-!
# The renewal loop of a host

One task for each host reads the certificate on disk, sleeps until it is due,
asks the certificate authority for a new one and writes it.  An operator may
kick the loop out of its sleep.  A failed issuance is followed by a backoff; a
successful one is followed by whatever the file on disk says, and that is to go
on at once where the certificate could not be written or is due already.

Durations are counted in nanoseconds.
-/

namespace Yggdrasil.Acme

open Foundation
open Storage (firstCert)

def fromSecs (secs : Nat) : Nat := secs * 1000000000

def asSecs (duration : Nat) : Nat := duration / 1000000000

def checkedSub (a b : Nat) : Option Nat := if b ≤ a then some (a - b) else none

structure RenewConfig where
  renewBefore : Nat
  renewJitter : Nat

def RenewConfig.jitterSecs (config : RenewConfig) (random : Nat) : Nat :=
  if asSecs config.renewJitter = 0 then 0 else random % asSecs config.renewJitter

/-- `none` where the window has passed, or the clock stands before the epoch. -/
def sleepUntilRenewal (config : RenewConfig) (notAfterSecs : Nat) (nowSecs : Option Nat)
    (random : Nat) : Option Nat := do
  let now ← nowSecs
  if notAfterSecs ≤ now then none
  else do
    let renewTarget ← checkedSub (fromSecs (notAfterSecs - now)) config.renewBefore
    checkedSub renewTarget (fromSecs (config.jitterSecs random))

inductive RenewerPhase where
  | deciding
  | sleeping (duration : Nat)
  | issuing
  | writing
  | backingOff
  | stopped
  deriving DecidableEq, Repr

inductive Mark where
  | issue
  | waited (duration : Nat)
  | kicked
  deriving DecidableEq, Repr

structure Renewer where
  storage : Storage
  /-- Requests of operators that are queued. -/
  kicks : Nat
  phase : RenewerPhase
  log : List Mark

inductive RenewerEvent where
  | kick
  | decide (nowSecs : Option Nat) (random : Nat)
  | takeKick
  | wake
  | cancel
  /-- The manager is gone and with it the sender of kicks. -/
  | closed
  | issued (result : Except String IssuedCert)
  /-- A system call of `write_atomic`. -/
  | call
  | callFails (written : Nat)
  | backoffOver

def kickCapacity : Nat := 16

def backoff : Nat := fromSecs 300

namespace Renewer

def start (storage : Storage) : Renewer := ⟨storage, 0, .deciding, []⟩

def mark (renewer : Renewer) (mark : Mark) : Renewer :=
  { renewer with log := mark :: renewer.log }

def issue (renewer : Renewer) : Renewer :=
  { renewer.mark .issue with phase := .issuing }

def dequeue (renewer : Renewer) : Renewer :=
  { renewer.mark .kicked with kicks := renewer.kicks - 1 }

variable (config : RenewConfig) (readNotAfter : Bytes → Option Nat)

def plan (renewer : Renewer) (nowSecs : Option Nat) (random : Nat) : Option Nat := do
  let fullchain ← renewer.storage.final .fullchain
  let notAfterSecs ← readNotAfter fullchain.pem
  sleepUntilRenewal config notAfterSecs nowSecs random

def step (renewer : Renewer) : RenewerEvent → Option Renewer
  | .kick =>
      if renewer.kicks < kickCapacity then some { renewer with kicks := renewer.kicks + 1 }
      else none
  | .decide nowSecs random =>
      if renewer.phase = .deciding then
        match renewer.plan config readNotAfter nowSecs random with
        | some duration => some { renewer with phase := .sleeping duration }
        | none => some (if 0 < renewer.kicks then renewer.dequeue.issue else renewer.issue)
      else none
  | .takeKick =>
      match renewer.phase with
      | .sleeping _ => if 0 < renewer.kicks then some renewer.dequeue.issue else none
      | _ => none
  | .wake =>
      match renewer.phase with
      -- a queued kick is taken first
      | .sleeping duration =>
          if renewer.kicks = 0 then some (renewer.mark (.waited duration)).issue else none
      | _ => none
  | .cancel =>
      match renewer.phase with
      | .sleeping _ | .backingOff => some { renewer with phase := .stopped }
      | _ => none
  | .closed =>
      match renewer.phase with
      | .sleeping _ =>
          if renewer.kicks = 0 then some { renewer with phase := .stopped } else none
      | _ => none
  | .issued result =>
      if renewer.phase = .issuing then
        match result with
        | .ok cert =>
            (renewer.storage.step (.writeAtomic cert)).map (fun storage =>
              { renewer with storage := storage, phase := .writing })
        | .error _ => some { renewer with phase := .backingOff }
      else none
  | .call =>
      if renewer.phase = .writing then
        (renewer.storage.step .call).map (fun storage =>
          { renewer with
            storage := storage
            phase := if storage.writer.isNone then .deciding else .writing })
      else none
  | .callFails written =>
      if renewer.phase = .writing then
        (renewer.storage.step (.callFails written)).map (fun storage =>
          { renewer with storage := storage, phase := .deciding })
      else none
  | .backoffOver =>
      match renewer.phase with
      | .backingOff => some { renewer.mark (.waited backoff) with phase := .deciding }
      | _ => none

end Renewer

def Mark.paces : Mark → Bool
  | .issue => false
  | .waited duration => 0 < duration
  | .kicked => true

def Rested (log : List Mark) : Prop :=
  .issue ∈ log → (log.takeWhile (fun mark => mark ≠ .issue)).any Mark.paces

/-- Any two consecutive issuances have a wait or a kick between them. -/
def Paced : List Mark → Prop
  | [] => True
  | .issue :: log => Rested log ∧ Paced log
  | _ :: log => Paced log

theorem rested_of_paces {mark : Mark} {log : List Mark} (h : mark.paces) : Rested (mark :: log) := by
  intro _
  cases mark with
  | issue => cases h
  | waited duration => simp [h]
  | kicked => simp [Mark.paces]

theorem not_rested_issue (log : List Mark) : ¬ Rested (.issue :: log) := by
  simp [Rested]

theorem rested_waited_zero_iff {log : List Mark} :
    Rested (.waited 0 :: log) ↔ Rested log := by
  simp [Rested, Mark.paces]

namespace Renewer

def JustIssued (renewer : Renewer) : Prop := renewer.log.head? = some .issue

structure Orderly (renewer : Renewer) : Prop where
  paced : Paced renewer.log
  before : renewer.phase = .deciding ∨ (∃ duration, renewer.phase = .sleeping duration) →
    Rested renewer.log ∨ renewer.JustIssued
  during : renewer.phase = .issuing ∨ renewer.phase = .writing → renewer.JustIssued

def LeavesTime (config : RenewConfig) (readNotAfter : Bytes → Option Nat) (renewer : Renewer)
    (event : RenewerEvent) : Prop :=
  renewer.JustIssued →
    (∀ nowSecs random, event = .decide nowSecs random → renewer.phase = .deciding →
      0 < renewer.kicks ∨ ∃ duration, renewer.plan config readNotAfter nowSecs random = some duration) ∧
    (event = .wake → renewer.kicks = 0 → renewer.phase ≠ .sleeping 0)

variable {config : RenewConfig} {readNotAfter : Bytes → Option Nat} {renewer next : Renewer}

theorem orderly_start (storage : Storage) : Orderly (start storage) where
  paced := trivial
  before _ := .inl (fun h => absurd h List.not_mem_nil)
  during h := by rcases h with h | h <;> cases h

theorem Orderly.issue (h : Paced renewer.log) (hrested : Rested renewer.log) :
    Orderly renewer.issue where
  paced := ⟨hrested, h⟩
  before hphase := by rcases hphase with hphase | ⟨_, hphase⟩ <;> cases hphase
  during _ := rfl

theorem not_rested_of_justIssued (h : renewer.JustIssued) : ¬ Rested renewer.log := by
  obtain ⟨log, hlog⟩ := List.head?_eq_some_iff.1 h
  rw [hlog]
  exact not_rested_issue log

theorem Orderly.stop (h : Orderly renewer) : Orderly { renewer with phase := .stopped } where
  paced := h.paced
  before hphase := by rcases hphase with hphase | ⟨_, hphase⟩ <;> cases hphase
  during hphase := by rcases hphase with hphase | hphase <;> cases hphase

theorem Orderly.store (h : Orderly renewer) (hwriting : renewer.phase = .writing)
    (storage : Storage) (phase : RenewerPhase) :
    Orderly { renewer with storage := storage, phase := phase } where
  paced := h.paced
  before _ := .inr (h.during (.inr hwriting))
  during _ := h.during (.inr hwriting)

theorem orderly_step {event : RenewerEvent} (h : Orderly renewer)
    (hguard : LeavesTime config readNotAfter renewer event)
    (hstep : renewer.step config readNotAfter event = some next) : Orderly next := by
  cases event with
  | kick =>
      simp only [step] at hstep
      split at hstep
      · cases hstep
        exact ⟨h.paced, h.before, h.during⟩
      · cases hstep
  | decide nowSecs random =>
      simp only [step] at hstep
      split at hstep
      next hphase =>
        split at hstep
        next duration hplan =>
          cases hstep
          refine ⟨h.paced, fun _ => h.before (.inl hphase), fun hbusy => ?_⟩
          rcases hbusy with hbusy | hbusy <;> cases hbusy
        next hplan =>
          cases hstep
          split
          next => exact Orderly.issue h.paced (rested_of_paces rfl)
          next hkicks =>
            refine Orderly.issue h.paced ((h.before (.inl hphase)).resolve_right fun hjust => ?_)
            rcases (hguard hjust).1 nowSecs random rfl hphase with hkick | ⟨duration, hsome⟩
            · exact hkicks hkick
            · cases hplan.symm.trans hsome
      next => cases hstep
  | takeKick =>
      simp only [step] at hstep
      split at hstep
      · split at hstep
        · cases hstep
          exact Orderly.issue h.paced (rested_of_paces rfl)
        · cases hstep
      · cases hstep
  | wake =>
      simp only [step] at hstep
      split at hstep
      next duration hphase =>
        split at hstep
        next hkicks =>
          cases hstep
          refine Orderly.issue h.paced ?_
          cases duration with
          | zero =>
              refine rested_waited_zero_iff.2
                ((h.before (.inr ⟨0, hphase⟩)).resolve_right fun hjust => ?_)
              exact (hguard hjust).2 rfl hkicks hphase
          | succ duration => exact rested_of_paces (by simp [Mark.paces])
        next => cases hstep
      next => cases hstep
  | cancel =>
      simp only [step] at hstep
      split at hstep
      · exact Option.some.inj hstep ▸ h.stop
      · exact Option.some.inj hstep ▸ h.stop
      · cases hstep
  | closed =>
      simp only [step] at hstep
      split at hstep
      · split at hstep
        · exact Option.some.inj hstep ▸ h.stop
        · cases hstep
      · cases hstep
  | issued result =>
      simp only [step] at hstep
      split at hstep
      next hphase =>
        cases result with
        | ok cert =>
            obtain ⟨storage, -, rfl⟩ := Option.map_eq_some_iff.1 hstep
            exact ⟨h.paced, fun _ => .inr (h.during (.inl hphase)), fun _ => h.during (.inl hphase)⟩
        | error e =>
            cases hstep
            refine ⟨h.paced, fun hidle => ?_, fun hbusy => ?_⟩
            · rcases hidle with hidle | ⟨_, hidle⟩ <;> cases hidle
            · rcases hbusy with hbusy | hbusy <;> cases hbusy
      next => cases hstep
  | call =>
      simp only [step] at hstep
      split at hstep
      next hphase =>
        obtain ⟨storage, -, rfl⟩ := Option.map_eq_some_iff.1 hstep
        exact h.store hphase storage _
      next => cases hstep
  | callFails written =>
      simp only [step] at hstep
      split at hstep
      next hphase =>
        obtain ⟨storage, -, rfl⟩ := Option.map_eq_some_iff.1 hstep
        exact h.store hphase storage .deciding
      next => cases hstep
  | backoffOver =>
      simp only [step] at hstep
      split at hstep
      · cases hstep
        refine ⟨h.paced, fun _ => .inl (rested_of_paces (by decide)), fun hbusy => ?_⟩
        rcases hbusy with hbusy | hbusy <;> cases hbusy
      · cases hstep

theorem leavesTime_of_paced {event : RenewerEvent}
    (hnext : ∀ next, renewer.step config readNotAfter event = some next → Paced next.log) :
    LeavesTime config readNotAfter renewer event := by
  intro hjust
  have hnot := not_rested_of_justIssued hjust
  constructor
  · rintro nowSecs random rfl hphase
    by_contra htime
    push Not at htime
    have hplan : renewer.plan config readNotAfter nowSecs random = none :=
      Option.eq_none_iff_forall_ne_some.2 htime.2
    have hkicks : ¬ 0 < renewer.kicks := by omega
    have hissue := hnext renewer.issue (by simp [step, hphase, hplan, hkicks])
    exact hnot hissue.1
  · rintro rfl hkicks hphase
    have hissue := hnext (renewer.mark (.waited 0)).issue (by simp [step, hphase, hkicks])
    exact hnot (rested_waited_zero_iff.1 hissue.1)

/--
Issuances are paced exactly when every certificate that was issued leaves the
loop something to wait for: what is on disk afterwards can be read and is due
at a later time, or an operator has kicked the loop.
-/
theorem issuances_paced_iff (config : RenewConfig) (readNotAfter : Bytes → Option Nat)
    (storage : Storage) (events : List RenewerEvent) :
    (∀ before reached, before <+: events →
        run (step config readNotAfter) (start storage) before = some reached →
        Paced reached.log) ↔
      Along (step config readNotAfter) (LeavesTime config readNotAfter) (start storage) events :=
  reached_iff_along (step config readNotAfter)
    (fun _ _ _ h hguard hstep => orderly_step h hguard hstep) (fun _ h => h.paced)
    (fun _ _ _ hnext => leavesTime_of_paced hnext) (orderly_start storage) events

def thirtyDays : RenewConfig := ⟨fromSecs 2592000, 0⟩

def issueAndWrite : List RenewerEvent :=
  .decide (some 0) 0 :: .issued (.ok firstCert) :: List.replicate 10 .call

theorem issuances_paced_ninety_days :
    ∃ reached, run (step thirtyDays (fun _ => some 7776000)) (start .start)
        (issueAndWrite ++ [.decide (some 0) 0, .wake]) = some reached ∧
      reached.log = [.issue, .waited (fromSecs 5184000), .issue] ∧ Paced reached.log := by
  refine ⟨_, rfl, rfl, ?_⟩
  refine (issuances_paced_iff thirtyDays (fun _ => some 7776000) .start
    (issueAndWrite ++ [.decide (some 0) 0, .wake])).2 ?_ _ _ (List.prefix_refl _) rfl
  have hother : ∀ {renewer : Renewer} {event : RenewerEvent},
      (∀ nowSecs random, event ≠ .decide nowSecs random) → event ≠ .wake →
      LeavesTime thirtyDays (fun _ => some 7776000) renewer event :=
    fun hdecide hwake _ => ⟨fun _ _ h => absurd h (hdecide _ _), fun h => absurd h hwake⟩
  refine along_cons _ (fun hjust => absurd hjust (by simp [JustIssued, start])) rfl ?_
  iterate 11 refine along_cons _ (hother (by simp) (by simp)) rfl ?_
  refine along_cons _ (fun _ => ⟨fun nowSecs random h _ => ?_, by simp⟩) rfl ?_
  · cases h
    exact .inr (Option.isSome_iff_exists.1 (by decide))
  · refine along_cons _ (fun _ => ⟨by simp, fun _ _ h => ?_⟩) rfl trivial
    exact absurd (RenewerPhase.sleeping.inj h) (by decide)

/--
A certificate of six days with a margin of thirty is due when it is issued, and
one that cannot be written is not there to be waited for: the authority is asked
again at once.
-/
theorem issuances_not_paced :
    (∃ reached, run (step thirtyDays (fun _ => some 518400)) (start .start)
        (issueAndWrite ++ [.decide (some 0) 0]) = some reached ∧
      reached.log = [.issue, .issue] ∧ ¬ Paced reached.log) ∧
    (∃ reached, run (step thirtyDays (fun _ => some 7776000)) (start .start)
        [.decide (some 0) 0, .issued (.ok firstCert), .callFails 0, .decide (some 0) 0] =
          some reached ∧
      reached.log = [.issue, .issue] ∧ ¬ Paced reached.log) := by
  have hnot : ¬ Paced [.issue, .issue] := fun h => not_rested_issue [] h.1
  exact ⟨⟨_, rfl, rfl, hnot⟩, ⟨_, rfl, rfl, hnot⟩⟩

end Renewer

end Yggdrasil.Acme
