import Yggdrasil.Foundation.Run

/-!
# Giving up a dead session

Before it waits for its next event the client's session loop looks at its
timers: the keys may be due for renewal, a probe may have gone unanswered, or
the acknowledgements may have stopped.  A session is given up only after a
silence of three heartbeat intervals, and a loop that is woken often enough
never gets to the backstop of six.  What the arms of the loop do to the session
and its control channel is the subject of `Endpoint`.
-/

namespace Yggdrasil.Chain

open Foundation

structure Timing where
  heartbeatInterval : Nat
  rekeyInterval : Nat

namespace Timing

variable (timing : Timing)

def ackDeadline : Nat := timing.heartbeatInterval * 6

def fastProbeAfter : Nat := timing.heartbeatInterval * 2

def fastProbeDeadline : Nat := timing.heartbeatInterval * 1

end Timing

inductive SessionExit where
  | rekey
  | cancelled
  | reconnectRequested
  deriving DecidableEq, Repr

inductive SessionError where
  | probeUnanswered (elapsed sent acked : Nat)
  | noAck (sinceAck sent acked : Nat)
  | neverAcked (sent deadline : Nat)
  | recv
  | encodeHeartbeat
  | sendHeartbeat
  deriving DecidableEq, Repr

def SessionError.presumedDead : SessionError → Bool
  | probeUnanswered .. | noAck .. | neverAcked .. => true
  | _ => false

/-- The clock is read anew for each test; `leaves` if a probe that is tried is sent. -/
structure Look where
  rekeyAt : Nat
  probeAt : Nat
  ackAt : Nat
  sentAt : Nat
  ordered : rekeyAt ≤ probeAt ∧ probeAt ≤ ackAt ∧ ackAt ≤ sentAt
  leaves : Bool

inductive LoopEvent where
  | cancel
  | reconnect
  | acked
  | recvFailed
  | tick (encodes sends : Bool)
  /-- Other packets, control sends and retransmissions. -/
  | other

structure Round where
  look : Look
  event : LoopEvent
  now : Nat
  later : look.sentAt ≤ now

/-- The loop's variables; with them the clock, the last look and the times of all acks. -/
structure HeartbeatLoop where
  sessionStarted : Nat
  lastAckAt : Option Nat
  heartbeatsSent : Nat
  acksReceived : Nat
  probePendingSince : Option Nat
  ended : Option (Except SessionError SessionExit)
  clock : Nat
  lookedAt : Nat
  acks : List Nat

namespace HeartbeatLoop

variable (timing : Timing)

def start (now : Nat) : HeartbeatLoop := ⟨now, none, 0, 0, none, none, now, now, []⟩

def overdue (look : Look) (loop : HeartbeatLoop) : Option (Except SessionError SessionExit) :=
  match loop.lastAckAt with
  | some last =>
      if timing.ackDeadline < look.ackAt - last then
        some (.error (.noAck (look.ackAt - last) loop.heartbeatsSent loop.acksReceived))
      else none
  | none =>
      if 0 < loop.heartbeatsSent ∧ timing.ackDeadline < look.ackAt - loop.sessionStarted then
        some (.error (.neverAcked loop.heartbeatsSent timing.ackDeadline))
      else none

/-- One probe is sent for one silence. -/
def fastProbe (look : Look) (loop : HeartbeatLoop) : HeartbeatLoop :=
  if loop.probePendingSince.isNone && look.leaves &&
      loop.lastAckAt.any (fun last => timing.fastProbeAfter < look.ackAt - last) then
    { loop with
      heartbeatsSent := loop.heartbeatsSent + 1
      probePendingSince := some look.sentAt }
  else loop

def check (loop : HeartbeatLoop) (look : Look) : HeartbeatLoop :=
  let loop := { loop with lookedAt := look.rekeyAt, clock := look.sentAt }
  if timing.rekeyInterval ≤ look.rekeyAt - loop.sessionStarted then
    { loop with ended := some (.ok .rekey) }
  else
    match loop.probePendingSince.filter
      (fun since => timing.fastProbeDeadline < look.probeAt - since) with
    | some since =>
        { loop with ended := some (.error (.probeUnanswered (look.probeAt - since)
          loop.heartbeatsSent loop.acksReceived)) }
    | none =>
        let loop := loop.fastProbe timing look
        { loop with ended := loop.overdue timing look }

/-- Any ack clears the probe, whose packet looks like that of every other heartbeat. -/
def take (loop : HeartbeatLoop) : LoopEvent → HeartbeatLoop
  | .cancel => { loop with ended := some (.ok .cancelled) }
  | .reconnect => { loop with ended := some (.ok .reconnectRequested) }
  | .acked =>
      { loop with
        acksReceived := loop.acksReceived + 1
        lastAckAt := some loop.clock
        probePendingSince := none
        acks := loop.clock :: loop.acks }
  | .recvFailed => { loop with ended := some (.error .recv) }
  | .tick false _ => { loop with ended := some (.error .encodeHeartbeat) }
  | .tick true false => { loop with ended := some (.error .sendHeartbeat) }
  | .tick true true => { loop with heartbeatsSent := loop.heartbeatsSent + 1 }
  | .other => loop

/-- One round of the loop; the clock does not go back between two rounds. -/
def step (loop : HeartbeatLoop) (round : Round) : Option HeartbeatLoop :=
  if loop.ended.isSome ∨ round.look.rekeyAt < loop.clock then none
  else
    let loop := loop.check timing round.look
    if loop.ended.isSome then some loop
    else some ({ loop with clock := round.now }.take round.event)

variable {timing} {loop next : HeartbeatLoop} {look : Look} {round : Round} {gap : Nat}

theorem step_cases (hstep : loop.step timing round = some next) :
    loop.ended = none ∧ loop.clock ≤ round.look.rekeyAt ∧
      (next = loop.check timing round.look ∨
        (loop.check timing round.look).ended = none ∧
          next = { loop.check timing round.look with clock := round.now }.take round.event) := by
  unfold step at hstep
  dsimp only at hstep
  split_ifs at hstep with hblocked hover
  all_goals
    rw [not_or, not_lt, Option.not_isSome_iff_eq_none] at hblocked
    refine ⟨hblocked.1, hblocked.2, ?_⟩
  · exact .inl (Option.some.inj hstep).symm
  · exact .inr ⟨Option.not_isSome_iff_eq_none.1 hover, (Option.some.inj hstep).symm⟩

theorem take_cases (hended : loop.ended = none) (event : LoopEvent) :
    loop.take event =
      { loop with
        acksReceived := loop.acksReceived + 1
        lastAckAt := some loop.clock
        probePendingSince := none
        acks := loop.clock :: loop.acks } ∨
    ∃ heartbeatsSent ended, loop.take event = { loop with heartbeatsSent, ended } ∧
      ∀ error, ended = some (.error error) → error.presumedDead = false := by
  cases event with
  | acked => exact .inl rfl
  | cancel | reconnect | recvFailed =>
      exact .inr ⟨_, _, rfl, by simp [SessionError.presumedDead]⟩
  | tick encodes sends =>
      rcases encodes with _ | _ <;> rcases sends with _ | _ <;>
        exact .inr ⟨_, _, rfl, by simp [hended, SessionError.presumedDead]⟩
  | other => exact .inr ⟨_, _, rfl, by simp [hended]⟩

theorem overdue_cases (timing : Timing) (look : Look) (loop : HeartbeatLoop) :
    loop.overdue timing look = none ∨
    (∃ last elapsed sent acked, loop.lastAckAt = some last ∧
      timing.ackDeadline < look.ackAt - last ∧
      loop.overdue timing look = some (.error (.noAck elapsed sent acked))) ∨
    (∃ sent deadline, loop.lastAckAt = none ∧
      timing.ackDeadline < look.ackAt - loop.sessionStarted ∧
      loop.overdue timing look = some (.error (.neverAcked sent deadline))) := by
  unfold overdue
  split
  · rename_i last hlast
    split_ifs with hover
    · exact .inr (.inl ⟨last, _, _, _, hlast, hover, rfl⟩)
    · exact .inl rfl
  · rename_i hnone
    split_ifs with hover
    · exact .inr (.inr ⟨_, _, hnone, hover.2, rfl⟩)
    · exact .inl rfl

/-- Everything a look at the timers can come to. -/
theorem check_cases (timing : Timing) (look : Look) (loop : HeartbeatLoop) :
    ∃ sent pending ended,
      loop.check timing look =
        { loop with
          lookedAt := look.rekeyAt
          clock := look.sentAt
          heartbeatsSent := sent
          probePendingSince := pending
          ended } ∧
      (pending = loop.probePendingSince ∨
        loop.probePendingSince = none ∧ pending = some look.sentAt ∧
          ∃ last, loop.lastAckAt = some last ∧ timing.fastProbeAfter < look.ackAt - last) ∧
      (ended = some (.ok .rekey) ∨
        (∃ since elapsed sent acked, loop.probePendingSince = some since ∧
          timing.fastProbeDeadline < look.probeAt - since ∧
          ended = some (.error (.probeUnanswered elapsed sent acked))) ∨
        (∀ since, loop.probePendingSince = some since →
            look.probeAt - since ≤ timing.fastProbeDeadline) ∧
          (pending = none → look.leaves = true → ∀ last, loop.lastAckAt = some last →
            look.ackAt - last ≤ timing.fastProbeAfter) ∧
          (ended = none ∨
            (∃ last elapsed sent acked, loop.lastAckAt = some last ∧
              timing.ackDeadline < look.ackAt - last ∧
              ended = some (.error (.noAck elapsed sent acked))) ∨
            (∃ sent deadline, loop.lastAckAt = none ∧
              timing.ackDeadline < look.ackAt - loop.sessionStarted ∧
              ended = some (.error (.neverAcked sent deadline))))) := by
  unfold check
  dsimp only
  by_cases hrekey : timing.rekeyInterval ≤ look.rekeyAt - loop.sessionStarted
  · rw [if_pos hrekey]
    exact ⟨_, _, _, rfl, .inl rfl, .inl rfl⟩
  rw [if_neg hrekey]
  split
  · rename_i since hsince
    rw [Option.filter_eq_some_iff, decide_eq_true_eq] at hsince
    exact ⟨_, _, _, rfl, .inl rfl, .inr (.inl ⟨since, _, _, _, hsince.1, hsince.2, rfl⟩)⟩
  · rename_i hanswered
    rw [Option.filter_eq_none_iff] at hanswered
    have hshort : ∀ since, loop.probePendingSince = some since →
        look.probeAt - since ≤ timing.fastProbeDeadline := by
      intro since hsince
      simpa using hanswered since hsince
    unfold fastProbe
    split_ifs with hprobed
    · simp only [Bool.and_eq_true, Option.isNone_iff_eq_none, Option.any_eq_true,
        decide_eq_true_eq] at hprobed
      obtain ⟨⟨hnone, -⟩, last, hlast, hlong⟩ := hprobed
      exact ⟨_, _, _, rfl, .inr ⟨hnone, rfl, last, hlast, hlong⟩,
        .inr (.inr ⟨hshort, by simp, overdue_cases timing look _⟩)⟩
    · refine ⟨_, _, _, rfl, .inl rfl, .inr (.inr ⟨hshort, ?_, overdue_cases timing look _⟩)⟩
      intro hnone hleaves last hlast
      by_contra hlong
      refine hprobed ?_
      simp only [hleaves, hlast, Bool.and_eq_true, Option.isNone_iff_eq_none, Option.any_some,
        decide_eq_true_eq, and_true]
      exact ⟨hnone, by omega⟩

/-- No ack for three heartbeat intervals or, where there never was one, for six. -/
def Silent (timing : Timing) (loop : HeartbeatLoop) : Prop :=
  (loop.acks = [] → loop.sessionStarted + timing.heartbeatInterval * 6 < loop.clock) ∧
    ∀ time ∈ loop.acks, time + timing.heartbeatInterval * 3 < loop.clock

structure Sound (timing : Timing) (loop : HeartbeatLoop) : Prop where
  last : loop.lastAckAt = loop.acks.head?
  past : ∀ time ∈ loop.acks, time ≤ loop.clock
  newest : ∀ time ∈ loop.acks, ∀ last, loop.lastAckAt = some last → time ≤ last
  looked : loop.lookedAt ≤ loop.clock
  probed : ∀ since, loop.probePendingSince = some since →
    ∃ last, loop.lastAckAt = some last ∧ last + timing.fastProbeAfter < since
  silent : ∀ error, loop.ended = some (.error error) → error.presumedDead = true →
    loop.Silent timing

theorem Sound.silent_of_last (h : loop.Sound timing) {last : Nat}
    (hlast : loop.lastAckAt = some last) (hacks : next.acks = loop.acks)
    (hlong : last + timing.heartbeatInterval * 3 < next.clock) : next.Silent timing := by
  rw [Silent, hacks]
  refine ⟨fun hnil => ?_, fun time htime => ?_⟩
  · rw [h.last, hnil] at hlast
    cases hlast
  · have hle := h.newest time htime last hlast
    omega

theorem Sound.check (h : loop.Sound timing) (hclock : loop.clock ≤ look.rekeyAt) :
    (loop.check timing look).Sound timing := by
  have hordered := look.ordered
  obtain ⟨sent, pending, ended, heq, hpending, hended⟩ := check_cases timing look loop
  rw [heq]
  refine ⟨h.last, fun time htime => ?_, h.newest, by dsimp only; omega, fun since hsince => ?_,
    fun error herror _ => ?_⟩
  · have hle := h.past time htime
    dsimp only
    omega
  · rcases hpending with rfl | ⟨-, rfl, last, hlast, hlong⟩
    · exact h.probed since hsince
    · obtain rfl : look.sentAt = since := Option.some.inj hsince
      exact ⟨last, hlast, by omega⟩
  · obtain rfl : ended = some (.error error) := herror
    rcases hended with hend | ⟨since, _, _, _, hsince, hover, -⟩ | ⟨-, -, hend |
      ⟨last, _, _, _, hlast, hover, -⟩ | ⟨_, _, hnone, hover, -⟩⟩
    · cases hend
    · obtain ⟨last, hlast, hlong⟩ := h.probed since hsince
      unfold Timing.fastProbeDeadline at hover
      unfold Timing.fastProbeAfter at hlong
      exact h.silent_of_last hlast rfl (by dsimp only; omega)
    · cases hend
    · unfold Timing.ackDeadline at hover
      exact h.silent_of_last hlast rfl (by dsimp only; omega)
    · unfold Timing.ackDeadline at hover
      have hnil : loop.acks = [] := List.head?_eq_none_iff.1 (h.last.symm.trans hnone)
      exact ⟨fun _ => by dsimp only; omega, by simp [hnil]⟩

theorem Sound.take (h : loop.Sound timing) (hended : loop.ended = none) (event : LoopEvent) :
    (loop.take event).Sound timing := by
  rcases take_cases hended event with heq | ⟨sent, ended, heq, halive⟩
  · rw [heq]
    exact ⟨rfl, by simpa using h.past, by simpa using h.past, h.looked, by simp, by simp [hended]⟩
  · rw [heq]
    refine ⟨h.last, h.past, h.newest, h.looked, h.probed, fun error herror hdead => ?_⟩
    simp [halive error herror] at hdead

theorem Sound.advance (h : loop.Sound timing) (hended : loop.ended = none) {now : Nat}
    (hnow : loop.clock ≤ now) : Sound timing { loop with clock := now } :=
  ⟨h.last, fun time htime => (h.past time htime).trans hnow, h.newest, h.looked.trans hnow,
    h.probed, by simp [hended]⟩

theorem sound_step (h : loop.Sound timing) (hstep : loop.step timing round = some next) :
    next.Sound timing ∧ (loop.check timing round.look).clock ≤ round.now := by
  obtain ⟨-, hclock, hnext⟩ := step_cases hstep
  have hchecked := h.check hclock
  have hlater : (loop.check timing round.look).clock ≤ round.now := by
    obtain ⟨_, _, _, heq, -⟩ := check_cases timing round.look loop
    rw [heq]
    exact round.later
  rcases hnext with rfl | ⟨hrunning, rfl⟩
  · exact ⟨hchecked, hlater⟩
  · exact ⟨(hchecked.advance hrunning hlater).take hrunning round.event, hlater⟩

theorem sound_start (now : Nat) : (start now).Sound timing :=
  ⟨rfl, by simp [start], by simp [start], le_rfl, by simp [start], by simp [start]⟩

/-- A session that is presumed dead has been silent for three heartbeat intervals. -/
theorem dead_session_silent (now : Nat) (rounds : List Round) {error : SessionError}
    (hrun : run (step timing) (start now) rounds = some loop)
    (hended : loop.ended = some (.error error)) (hdead : error.presumedDead = true) :
    loop.Silent timing := by
  have hsound : loop.Sound timing :=
    run_invariant (step timing) (fun _ _ _ h hstep => (sound_step h hstep).1) (sound_start now) hrun
  exact hsound.silent error hended hdead

def toyRound (now : Nat) (event : LoopEvent) : Round :=
  ⟨⟨now, now, now, now, ⟨le_rfl, le_rfl, le_rfl⟩, true⟩, event, now, le_rfl⟩

/-- One ack, then silence: a probe goes out at 22 and is given up at 33. -/
def toyRounds : List Round :=
  [toyRound 0 (.tick true true), toyRound 1 .acked, toyRound 12 .other, toyRound 22 .other,
    toyRound 33 .other]

theorem dead_session_silent_toy :
    ∃ loop, run (step ⟨10, 1000⟩) (start 0) toyRounds = some loop ∧ loop.Silent ⟨10, 1000⟩ :=
  ⟨_, rfl, dead_session_silent 0 toyRounds rfl rfl rfl⟩

/-- The timers are looked at again in time, and a probe that is tried is sent. -/
def Prompt (gap : Nat) (loop : HeartbeatLoop) (round : Round) : Prop :=
  round.look.sentAt ≤ loop.lookedAt + gap ∧ round.look.leaves = true

structure Punctual (timing : Timing) (gap : Nat) (loop : HeartbeatLoop) : Prop where
  unprobed : loop.ended = none → loop.probePendingSince = none →
    ∀ last, loop.lastAckAt = some last → loop.lookedAt ≤ last + timing.fastProbeAfter
  probed : loop.ended = none → ∀ since, loop.probePendingSince = some since →
    ∀ last, loop.lastAckAt = some last → since ≤ last + timing.fastProbeAfter + gap ∧
      loop.lookedAt ≤ since + timing.fastProbeDeadline
  backstop : 2 * gap ≤ timing.heartbeatInterval * 3 → ∀ error, loop.ended = some (.error error) →
    error.presumedDead = true → loop.lastAckAt ≠ none →
      ∃ elapsed sent acked, error = .probeUnanswered elapsed sent acked

theorem Punctual.recent (h : loop.Punctual timing gap) (hended : loop.ended = none) {last : Nat}
    (hlast : loop.lastAckAt = some last) :
    loop.lookedAt ≤ last + timing.heartbeatInterval * 3 + gap := by
  cases hpending : loop.probePendingSince with
  | none =>
      have hle := h.unprobed hended hpending last hlast
      unfold Timing.fastProbeAfter at hle
      omega
  | some since =>
      have hle := h.probed hended since hpending last hlast
      unfold Timing.fastProbeAfter Timing.fastProbeDeadline at hle
      omega

theorem Punctual.check (h : loop.Punctual timing gap) (hrunning : loop.ended = none)
    (hsoon : look.sentAt ≤ loop.lookedAt + gap) (hleaves : look.leaves = true) :
    (loop.check timing look).Punctual timing gap := by
  have hordered := look.ordered
  obtain ⟨sent, pending, ended, heq, hpending, hended⟩ := check_cases timing look loop
  rw [heq]
  rcases hended with rfl | ⟨_, _, _, _, -, -, rfl⟩ | ⟨hanswered, hshort, rfl |
    ⟨last, _, _, _, hlast, hover, rfl⟩ | ⟨_, _, hnever, -, rfl⟩⟩
  · exact ⟨by simp, by simp, by simp⟩
  · exact ⟨by simp, by simp, by simp⟩
  · refine ⟨fun _ hnone last hlast => ?_, fun _ since hsince last hlast => ?_, by simp⟩
    · have hle := hshort hnone hleaves last hlast
      dsimp only
      omega
    · dsimp only at hsince ⊢
      rcases hpending with rfl | ⟨hnone, rfl, -⟩
      · have hle := hanswered since hsince
        exact ⟨(h.probed hrunning since hsince last hlast).1, by omega⟩
      · obtain rfl : look.sentAt = since := Option.some.inj hsince
        have hle := h.unprobed hrunning hnone last hlast
        exact ⟨by omega, by omega⟩
  · refine ⟨by simp, by simp, fun hgap => ?_⟩
    have hle := h.recent hrunning hlast
    unfold Timing.ackDeadline at hover
    omega
  · exact ⟨by simp, by simp, by simp [hnever]⟩

theorem Punctual.take (h : loop.Punctual timing gap) (hlooked : loop.lookedAt ≤ loop.clock)
    (hended : loop.ended = none) (event : LoopEvent) : (loop.take event).Punctual timing gap := by
  rcases take_cases hended event with heq | ⟨sent, ended, heq, halive⟩
  · rw [heq]
    refine ⟨fun _ _ last hlast => ?_, by simp, by simp [hended]⟩
    obtain rfl : loop.clock = last := Option.some.inj hlast
    exact hlooked.trans (Nat.le_add_right _ _)
  · rw [heq]
    refine ⟨fun _ => h.unprobed hended, fun _ => h.probed hended, fun _ error hend hdead => ?_⟩
    cases (halive error hend).symm.trans hdead

theorem punctual_step (h : loop.Sound timing ∧ loop.Punctual timing gap)
    (hprompt : loop.Prompt gap round) (hstep : loop.step timing round = some next) :
    next.Sound timing ∧ next.Punctual timing gap := by
  obtain ⟨hsound, hlater⟩ := sound_step h.1 hstep
  obtain ⟨hended, hclock, hnext⟩ := step_cases hstep
  have hchecked := h.2.check hended hprompt.1 hprompt.2
  refine ⟨hsound, ?_⟩
  rcases hnext with rfl | ⟨hrunning, rfl⟩
  · exact hchecked
  · have hadvanced :
        ({ loop.check timing round.look with clock := round.now }).Punctual timing gap :=
      ⟨hchecked.unprobed, hchecked.probed, hchecked.backstop⟩
    exact hadvanced.take ((h.1.check hclock).looked.trans hlater) hrunning round.event

/--
While the loop goes on, its last look was at most three intervals and one gap
after the last ack; with gaps up to an interval and a half, a session that has
been acked and is presumed dead has been given up by its probe.
-/
theorem silence_noticed (now : Nat) (rounds : List Round)
    (hprompt : Along (step timing) (Prompt gap) (start now) rounds)
    (hrun : run (step timing) (start now) rounds = some loop) {last : Nat}
    (hlast : loop.acks.head? = some last) :
    (loop.ended = none → loop.lookedAt ≤ last + timing.heartbeatInterval * 3 + gap) ∧
    (2 * gap ≤ timing.heartbeatInterval * 3 → ∀ error, loop.ended = some (.error error) →
      error.presumedDead = true →
        ∃ elapsed sent acked, error = .probeUnanswered elapsed sent acked) := by
  have hpunctual : loop.Sound timing ∧ loop.Punctual timing gap :=
    run_invariant_of_guard (step timing) (fun _ _ _ => punctual_step)
      ⟨sound_start now, by simp [start], by simp [start], by simp [start]⟩ hprompt hrun
  have hacked : loop.lastAckAt = some last := hpunctual.1.last.trans hlast
  exact ⟨fun hended => hpunctual.2.recent hended hacked, fun hgap error hended hdead =>
    hpunctual.2.backstop hgap error hended hdead (by simp [hacked])⟩

theorem silence_noticed_toy :
    (∃ loop, run (step ⟨10, 1000⟩) (start 0) (toyRounds.take 4) = some loop ∧
      loop.ended = none ∧ loop.lookedAt ≤ 1 + 10 * 3 + 11) ∧
    ∃ loop error, run (step ⟨10, 1000⟩) (start 0) toyRounds = some loop ∧
      loop.ended = some (.error error) ∧
        ∃ elapsed sent acked, error = .probeUnanswered elapsed sent acked := by
  constructor
  · have hprompt : Along (step ⟨10, 1000⟩) (Prompt 11) (start 0) (toyRounds.take 4) := by
      iterate 4 refine along_cons _ ⟨by decide, rfl⟩ rfl ?_
      trivial
    exact ⟨_, rfl, rfl, (silence_noticed 0 _ hprompt rfl rfl).1 rfl⟩
  · have hprompt : Along (step ⟨10, 1000⟩) (Prompt 11) (start 0) toyRounds := by
      iterate 5 refine along_cons _ ⟨by decide, rfl⟩ rfl ?_
      trivial
    exact ⟨_, _, rfl, rfl, (silence_noticed 0 _ hprompt rfl rfl).2 (by decide) _ rfl rfl⟩

end HeartbeatLoop

end Yggdrasil.Chain
