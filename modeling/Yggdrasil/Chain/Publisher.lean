import Yggdrasil.Chain.Reliability
import Yggdrasil.Foundation.Run

/-!
# The predicate publisher

The publisher projects the current rule set to a wire body, skips bodies equal
to the last one acked `Ok`, and hands the others to the chain client.  A push
suspends the loop until its ack, a failure or the publisher's own deadline ends
it.  Projection and hash are parameters.
-/

namespace Yggdrasil.Chain

open Foundation Ratatoskr

def predicateSetMaxWireBytes : Nat := 8 * 1024

/-- Extraction and encoding of a rule set, and the digest of an encoded body. -/
structure Projection (ρ D : Type) where
  encode : ρ → Option Bytes
  hash : Bytes → D

structure Publisher (ρ D : Type) where
  rules : ρ
  lastSentBodyHash : Option D
  inFlight : Option Bytes
  deriving DecidableEq, Repr

/-- How far one push attempt gets before the ack is awaited. -/
inductive Attempt where
  | encodeError
  | oversize (body : Bytes)
  | dedup (body : Bytes)
  | handed (body : Bytes)
  deriving DecidableEq, Repr

inductive PushOutcome where
  | resolved (result : SendResult)
  | clientDown
  | cancelled
  | publisherTimeout

def PushOutcome.isOk : PushOutcome → Bool
  | resolved (.ok ()) => true
  | _ => false

namespace Publisher

variable {ρ D : Type} [DecidableEq D] (P : Projection ρ D)

def start (rules : ρ) : Publisher ρ D := ⟨rules, none, none⟩

def publishOne (set : ρ) (lastSentHash : Option D) : Attempt :=
  match P.encode set with
  | none => .encodeError
  | some body =>
      if predicateSetMaxWireBytes < body.length then .oversize body
      else if lastSentHash = some (P.hash body) then .dedup body
      else .handed body

def publish (publisher : Publisher ρ D) : Publisher ρ D × Attempt :=
  match publishOne P publisher.rules publisher.lastSentBodyHash with
  | .handed body => ({ publisher with inFlight := some body }, .handed body)
  | attempt => (publisher, attempt)

/-- The session-epoch arm; nothing happens while no hash is remembered. -/
def epochBumped (publisher : Publisher ρ D) : Publisher ρ D × Option Attempt :=
  if publisher.lastSentBodyHash.isNone then (publisher, none)
  else
    let (publisher, attempt) := publish P { publisher with lastSentBodyHash := none }
    (publisher, some attempt)

/-- The rest of `publish_and_remember`: only an `Ok` ack is remembered. -/
def finish (publisher : Publisher ρ D) (body : Bytes) (outcome : PushOutcome) :
    Publisher ρ D :=
  match outcome with
  | .resolved (.ok ()) =>
      { publisher with inFlight := none, lastSentBodyHash := some (P.hash body) }
  | _ => { publisher with inFlight := none }

omit [DecidableEq D] in
theorem inFlight_finish (publisher : Publisher ρ D) (body : Bytes) (outcome : PushOutcome) :
    (publisher.finish P body outcome).inFlight = none := by
  unfold finish
  split <;> rfl

theorem publish_cases (publisher : Publisher ρ D) :
    (∃ body, P.encode publisher.rules = some body ∧
      body.length ≤ predicateSetMaxWireBytes ∧
      publisher.lastSentBodyHash ≠ some (P.hash body) ∧
      publish P publisher = ({ publisher with inFlight := some body }, .handed body)) ∨
    (∃ body, P.encode publisher.rules = some body ∧
      publisher.lastSentBodyHash = some (P.hash body) ∧
      publish P publisher = (publisher, .dedup body)) ∨
    ((∀ body, P.encode publisher.rules = some body →
        predicateSetMaxWireBytes < body.length) ∧
      ∃ attempt, publish P publisher = (publisher, attempt) ∧
        (attempt = .encodeError ∨ ∃ body, attempt = .oversize body)) := by
  unfold publish publishOne
  cases hencode : P.encode publisher.rules with
  | none => exact .inr (.inr ⟨by simp, .encodeError, rfl, .inl rfl⟩)
  | some body =>
      by_cases hsize : predicateSetMaxWireBytes < body.length
      · refine .inr (.inr ⟨fun other hother => ?_, .oversize body, ?_, .inr ⟨body, rfl⟩⟩)
        · cases hother
          exact hsize
        · simp only [if_pos hsize]
      · by_cases hsame : publisher.lastSentBodyHash = some (P.hash body)
        · refine .inr (.inl ⟨body, rfl, hsame, ?_⟩)
          simp only [if_neg hsize, if_pos hsame]
        · refine .inl ⟨body, rfl, Nat.le_of_not_lt hsize, hsame, ?_⟩
          simp only [if_neg hsize, if_neg hsame]

inductive Action where
  | changed (attempt : Attempt)
  | resynced (attempt : Attempt)
  | skippedBump
  | finished (acked : Bool)
  deriving DecidableEq, Repr

structure Running (ρ D : Type) where
  publisher : Publisher ρ D
  history : List Action

inductive Event (ρ : Type) where
  | setRules (set : ρ)
  | rulesChanged
  | epochBumped
  | finished (outcome : PushOutcome)

/-- The loop handles the next event only when no push is in flight. -/
def step (running : Running ρ D) : Event ρ → Option (Running ρ D)
  | .setRules set =>
      some { running with publisher := { running.publisher with rules := set } }
  | .rulesChanged =>
      if running.publisher.inFlight.isSome then none
      else
        let (publisher, attempt) := running.publisher.publish P
        some ⟨publisher, .changed attempt :: running.history⟩
  | .epochBumped =>
      if running.publisher.inFlight.isSome then none
      else
        match running.publisher.epochBumped P with
        | (publisher, none) => some ⟨publisher, .skippedBump :: running.history⟩
        | (publisher, some attempt) => some ⟨publisher, .resynced attempt :: running.history⟩
  | .finished outcome =>
      match running.publisher.inFlight with
      | none => none
      | some body =>
          some ⟨running.publisher.finish P body outcome,
            .finished outcome.isOk :: running.history⟩

/-- Some push was acked `Ok` since the last resync began. -/
def ackedSinceResync : List Action → Bool
  | [] => false
  | .finished acked :: older => acked || ackedSinceResync older
  | .resynced _ :: _ => false
  | .changed _ :: older => ackedSinceResync older
  | .skippedBump :: older => ackedSinceResync older

theorem lastSentBodyHash_publish (publisher : Publisher ρ D) :
    (publisher.publish P).1.lastSentBodyHash = publisher.lastSentBodyHash := by
  rcases publish_cases P publisher with ⟨body, -, -, -, h⟩ | ⟨body, -, -, h⟩ | ⟨-, attempt, h, -⟩
  · rw [h]
  · rw [h]
  · rw [h]

theorem ackedSinceResync_step {running next : Running ρ D} {event : Event ρ}
    (h : running.publisher.lastSentBodyHash.isSome = ackedSinceResync running.history)
    (hstep : step P running event = some next) :
    next.publisher.lastSentBodyHash.isSome = ackedSinceResync next.history := by
  cases event with
  | setRules set =>
      simp only [step, Option.some.injEq] at hstep
      rw [← hstep]
      exact h
  | rulesChanged =>
      simp only [step] at hstep
      split_ifs at hstep
      simp only [Option.some.injEq] at hstep
      rw [← hstep]
      exact (congrArg Option.isSome (lastSentBodyHash_publish P running.publisher)).trans h
  | epochBumped =>
      simp only [step] at hstep
      split_ifs at hstep
      unfold epochBumped at hstep
      split_ifs at hstep with hnone
      · simp only [Option.some.injEq] at hstep
        rw [← hstep]
        exact h
      · simp only [Option.some.injEq] at hstep
        rw [← hstep]
        exact congrArg Option.isSome (lastSentBodyHash_publish P _)
  | finished outcome =>
      simp only [step] at hstep
      cases hflight : running.publisher.inFlight with
      | none => simp [hflight] at hstep
      | some body =>
          simp only [hflight, Option.some.injEq] at hstep
          rw [← hstep]
          cases outcome with
          | resolved result =>
              cases result with
              | ok value => rfl
              | error e => exact h
          | clientDown => exact h
          | cancelled => exact h
          | publisherTimeout => exact h

/--
In every run, a bump handled while the current projection fits the wire cap
hands that projection to the client exactly when some push since the last
resync began has been acked `Ok`.
-/
theorem resync_iff {rules : ρ} {events : List (Event ρ)} {running : Running ρ D}
    (hrun : run (step P) ⟨start rules, []⟩ events = some running) {body : Bytes}
    (hencode : P.encode running.publisher.rules = some body)
    (hfits : body.length ≤ predicateSetMaxWireBytes) :
    (running.publisher.epochBumped P).2 = some (.handed body) ↔
      ackedSinceResync running.history = true := by
  have hhash := run_invariant (step P)
    (P := fun running => running.publisher.lastSentBodyHash.isSome =
      ackedSinceResync running.history)
    (fun _ _ _ h hstep => ackedSinceResync_step P h hstep) rfl hrun
  rw [← hhash]
  unfold epochBumped
  cases hlast : running.publisher.lastSentBodyHash with
  | none => simp
  | some digest =>
      have hpublish : publishOne P running.publisher.rules none = .handed body := by
        unfold publishOne
        rw [hencode]
        simp [Nat.not_lt.2 hfits]
      simp [publish, hpublish]

def toyProjection : Projection Bytes Bytes := ⟨some, id⟩

/-- The only push timed out, so the bump of the next session pushes nothing. -/
theorem bump_after_timeout_skipped :
    (run (step toyProjection) ⟨start [1], []⟩
      [.rulesChanged, .finished (.resolved (.error (.timeout 5)))]).map
      (fun running => (running.history, (running.publisher.epochBumped toyProjection).2)) =
    some ([.finished false, .changed (.handed [1])], none) := by
  rfl

theorem resync_iff_toy :
    ∃ running, run (step toyProjection) ⟨start [1], []⟩
        [.rulesChanged, .finished (.resolved (.ok ()))] = some running ∧
      (running.publisher.epochBumped toyProjection).2 = some (.handed [1]) := by
  have hrun : run (step toyProjection) ⟨start [1], []⟩
      [.rulesChanged, .finished (.resolved (.ok ()))] =
      some ⟨⟨[1], some [1], none⟩, [.finished true, .changed (.handed [1])]⟩ := rfl
  exact ⟨_, hrun, (resync_iff toyProjection hrun rfl (by decide)).2 rfl⟩

end Publisher

end Yggdrasil.Chain
