import Mathlib.Tactic

/-!
# Runs of a deterministic machine

A machine is a step function from a state and an event to the next state, or
to nothing where the event cannot be taken.  An invariant need only be shown
of the steps that meet a guard; it then holds in every state of a run all of
whose steps meet it.
-/

namespace Yggdrasil.Foundation

variable {σ ε : Type} (step : σ → ε → Option σ)

def run (state : σ) : List ε → Option σ
  | [] => some state
  | event :: events => (step state event).bind (fun next => run next events)

/-- Every step of the run meets the guard in the state it is taken from. -/
def Along (guard : σ → ε → Prop) (state : σ) : List ε → Prop
  | [] => True
  | event :: events =>
      guard state event ∧
        ∀ next, step state event = some next → Along guard next events

variable {guard : σ → ε → Prop} {state final : σ} {events : List ε} {P : σ → Prop}

theorem along_cons {next : σ} {event : ε} (hguard : guard state event)
    (hstep : step state event = some next)
    (hrest : Along step guard next events) : Along step guard state (event :: events) := by
  refine ⟨hguard, fun next' hnext => ?_⟩
  rw [hstep, Option.some.injEq] at hnext
  exact hnext ▸ hrest

instance decidableAlong [∀ state event, Decidable (guard state event)] (state : σ) :
    (events : List ε) → Decidable (Along step guard state events)
  | [] => .isTrue trivial
  | event :: events =>
      have : Decidable (∀ next, step state event = some next → Along step guard next events) :=
        match step state event with
        | none => .isTrue (fun _ h => nomatch h)
        | some next => @decidable_of_iff _ _ (by simp) (decidableAlong next events)
      inferInstanceAs (Decidable (_ ∧ _))

theorem along_of_forall (h : ∀ state event, guard state event) (state : σ)
    (events : List ε) : Along step guard state events := by
  induction events generalizing state with
  | nil => trivial
  | cons event events ih => exact ⟨h state event, fun next _ => ih next⟩

theorem along_of_mem {guard : ε → Prop} (h : ∀ event ∈ events, guard event)
    (state : σ) : Along step (fun _ => guard) state events := by
  induction events generalizing state with
  | nil => trivial
  | cons event events ih =>
      refine ⟨h event List.mem_cons_self, fun next _ => ih ?_ next⟩
      exact fun later hlater => h later (List.mem_cons_of_mem event hlater)

theorem exists_run (h : ∀ state event, ∃ next, step state event = some next) (state : σ)
    (events : List ε) : ∃ final, run step state events = some final := by
  induction events generalizing state with
  | nil => exact ⟨state, rfl⟩
  | cons event events ih =>
      obtain ⟨next, hnext⟩ := h state event
      obtain ⟨final, hfinal⟩ := ih next
      refine ⟨final, ?_⟩
      rw [run, hnext]
      exact hfinal

theorem run_invariant_of_guard (hstep : ∀ state event next, P state → guard state event →
      step state event = some next → P next) (hstart : P state)
    (hguard : Along step guard state events) (hrun : run step state events = some final) :
    P final := by
  induction events generalizing state with
  | nil =>
      obtain rfl : state = final := by simpa [run] using hrun
      exact hstart
  | cons event events ih =>
      simp only [run] at hrun
      cases hnext : step state event with
      | none => simp [hnext] at hrun
      | some next =>
          rw [hnext, Option.bind_some] at hrun
          exact ih (hstep state event next hstart hguard.1 hnext) (hguard.2 next hnext) hrun

theorem run_invariant (hstep : ∀ state event next, P state → step state event = some next → P next)
    (hstart : P state) (hrun : run step state events = some final) : P final := by
  exact run_invariant_of_guard step (fun s e t hs _ ht => hstep s e t hs ht) hstart
    (along_of_forall step (fun _ _ => trivial) state events) hrun

theorem run_append {middle : σ} {before after : List ε}
    (hbefore : run step state before = some middle) (hafter : run step middle after = some final) :
    run step state (before ++ after) = some final := by
  induction before generalizing state with
  | nil =>
      obtain rfl : state = middle := by simpa [run] using hbefore
      exact hafter
  | cons event before ih =>
      obtain ⟨next, hnext, hrest⟩ := Option.bind_eq_some_iff.1 hbefore
      simp only [List.cons_append, run, hnext, Option.bind_some]
      exact ih hrest

/-- The events of another machine that the steps of a run stand for. -/
def seenAs {δ : Type} (event' : σ → ε → Option δ) (state : σ) : List ε → List δ
  | [] => []
  | event :: events =>
      (event' state event).toList ++ (step state event).elim [] (seenAs event' · events)

/-- Where each step of one machine stands for a step of another or for none, each run is a run of
the other. -/
theorem run_simulates {τ δ : Type} {step' : τ → δ → Option τ} (abs : σ → τ)
    {event' : σ → ε → Option δ}
    (hstep : ∀ state event next, P state → step state event = some next →
      P next ∧ run step' (abs state) (event' state event).toList = some (abs next))
    (hstart : P state) (hrun : run step state events = some final) :
    run step' (abs state) (seenAs step event' state events) = some (abs final) := by
  induction events generalizing state with
  | nil =>
      obtain rfl : state = final := by simpa [run] using hrun
      rfl
  | cons event events ih =>
      obtain ⟨next, hnext, hrest⟩ := Option.bind_eq_some_iff.1 hrun
      obtain ⟨hkept, hfirst⟩ := hstep state event next hstart hnext
      rw [seenAs, hnext, Option.elim_some]
      exact run_append step' hfirst (ih hkept hrest)

theorem length_le_of_rank {counted : ε → Prop} {rank : σ → Nat}
    (hstep : ∀ state event next, counted event → step state event = some next →
      rank next < rank state) (hcounted : ∀ event ∈ events, counted event)
    (hrun : run step state events = some final) : events.length ≤ rank state := by
  induction events generalizing state with
  | nil => simp
  | cons event events ih =>
      obtain ⟨next, hnext, hrest⟩ := Option.bind_eq_some_iff.1 hrun
      have hless := hstep state event next (hcounted event List.mem_cons_self) hnext
      have hlength := ih (fun e he => hcounted e (List.mem_cons_of_mem _ he)) hrest
      simp only [List.length_cons]
      omega

/--
Where a property of the reached states follows from the invariant and is lost
by every step that breaks the guard, it holds all along a run exactly when all
steps meet the guard.  The run as a whole may be known to meet another guard.
-/
theorem reached_iff_along_within {background : σ → ε → Prop} {I : σ → Prop}
    (hstep : ∀ state event next, I state → background state event → guard state event →
      step state event = some next → I next) (hholds : ∀ state, I state → P state)
    (hneeded : ∀ state event, I state → background state event →
      (∀ next, step state event = some next → P next) → guard state event) (hstart : I state)
    (events : List ε) (hback : Along step background state events) :
    (∀ before reached, before <+: events → run step state before = some reached → P reached) ↔
      Along step guard state events := by
  induction events generalizing state with
  | nil =>
      refine ⟨fun _ => trivial, fun _ before reached hbefore hrun => ?_⟩
      rw [List.prefix_nil.1 hbefore] at hrun
      cases hrun
      exact hholds state hstart
  | cons event events ih =>
      constructor
      · intro h
        have hguard : guard state event := by
          refine hneeded state event hstart hback.1 fun next hnext => ?_
          refine h [event] next ((List.prefix_cons_inj event).2 List.nil_prefix) ?_
          simp [run, hnext]
        refine ⟨hguard, fun next hnext => ?_⟩
        refine (ih (hstep state event next hstart hback.1 hguard hnext) (hback.2 next hnext)).1 ?_
        intro before reached hbefore hrun
        refine h (event :: before) reached ((List.prefix_cons_inj event).2 hbefore) ?_
        simpa [run, hnext] using hrun
      · rintro ⟨hguard, hrest⟩ before reached hbefore hrun
        cases before with
        | nil =>
            cases hrun
            exact hholds state hstart
        | cons first before =>
            obtain ⟨rfl, htail⟩ := List.cons_prefix_cons.1 hbefore
            simp only [run] at hrun
            cases hnext : step state first with
            | none => simp [hnext] at hrun
            | some next =>
                rw [hnext, Option.bind_some] at hrun
                exact (ih (hstep state first next hstart hback.1 hguard hnext)
                  (hback.2 next hnext)).2 (hrest next hnext) before reached htail hrun

theorem reached_iff_along {I : σ → Prop} (hstep : ∀ state event next, I state → guard state event →
      step state event = some next → I next) (hholds : ∀ state, I state → P state)
    (hneeded : ∀ state event, I state → (∀ next, step state event = some next → P next) →
      guard state event) (hstart : I state) (events : List ε) :
    (∀ before reached, before <+: events → run step state before = some reached → P reached) ↔
      Along step guard state events :=
  reached_iff_along_within step (fun s e t hs _ => hstep s e t hs) hholds
    (fun s e hs _ => hneeded s e hs) hstart events
    (along_of_forall step (fun _ _ => trivial) state events)

end Yggdrasil.Foundation
