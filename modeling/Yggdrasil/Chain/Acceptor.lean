import Mathlib.Data.List.AList
import Yggdrasil.Chain.Delivery
import Yggdrasil.Chain.Publisher
import Yggdrasil.Ratatoskr.Handshake

/-!
# The chain acceptor

The relay's dispatcher for control bodies.  A predicate set is checked for
size, decoded, derived into rules and handed to the supervisor; it is acked
`Ok` exactly when it was handed over.  A relay with an upstream of its own
forwards the body as it came and remembers it by origin.
-/

namespace Yggdrasil.Chain

open Foundation Ratatoskr

/-- Decoding of a predicate set and its projection to rules or a reject code. -/
structure Derivation (π ρ : Type) where
  fromWireBytes : Bytes → Option π
  origin : π → PubKey
  derive : π → Except UInt16 ρ

structure ChainAcceptor (ρ : Type) where
  supervisorUp : Bool
  /-- Whether there is a chain client toward an upstream, and whether it still runs. -/
  upstream : Option Bool
  /-- What the supervisor was given, with the body it came from. -/
  applied : List (Bytes × ρ)
  lastForwarded : AList (fun _ : PubKey => Bytes)
  forwarded : List Bytes

def predicateSetTooLarge : UInt16 := 101
def invalidPredicate : UInt16 := 102

namespace ChainAcceptor

variable {π ρ : Type} (D : Derivation π ρ)

def forward (acceptor : ChainAcceptor ρ) (origin : PubKey) (body : Bytes) : ChainAcceptor ρ :=
  match acceptor.upstream with
  | none => acceptor
  | some running =>
      { acceptor with
        lastForwarded := acceptor.lastForwarded.insert origin body
        forwarded := if running then acceptor.forwarded ++ [body] else acceptor.forwarded }

def handlePredicateSetUpdate (acceptor : ChainAcceptor ρ) (body : Bytes) :
    ChainAcceptor ρ × AckStatus :=
  if predicateSetMaxWireBytes < body.length then (acceptor, .reject predicateSetTooLarge)
  else
    match D.fromWireBytes body with
    | none => (acceptor, .reject invalidPredicate)
    | some set =>
        match D.derive set with
        | .error code => (acceptor, .reject code)
        | .ok rules =>
            if !acceptor.supervisorUp then (acceptor, .reject invalidPredicate)
            else
              let acceptor := { acceptor with applied := acceptor.applied ++ [(body, rules)] }
              (acceptor.forward (D.origin set) body, .ok)

/-- Queries are answered by a task of their own and acked at once. -/
def dispatch : Dispatcher (ChainAcceptor ρ) := fun acceptor bodyType body =>
  match ControlBodyType.fromByte bodyType with
  | none => (acceptor, .unknown)
  | some .reserved | some .noop => (acceptor, .ok)
  | some .predicateSetUpdate => acceptor.handlePredicateSetUpdate D body
  | some .chainHopQuery | some .canaryArm => (acceptor, .ok)
  | some .chainHopReply | some .canaryReply => (acceptor, .unknown)

def appliedBodies (acceptor : ChainAcceptor ρ) : List Bytes := acceptor.applied.map Prod.fst

@[simp] theorem appliedBodies_forward (acceptor : ChainAcceptor ρ) (origin : PubKey)
    (body : Bytes) : (acceptor.forward origin body).appliedBodies = acceptor.appliedBodies := by
  unfold forward
  split <;> rfl

theorem handlePredicateSetUpdate_cases (acceptor : ChainAcceptor ρ) (body : Bytes) :
    ((acceptor.handlePredicateSetUpdate D body).2 = .ok ∧
      (acceptor.handlePredicateSetUpdate D body).1.appliedBodies =
        acceptor.appliedBodies ++ [body]) ∨
    ((acceptor.handlePredicateSetUpdate D body).2 ≠ .ok ∧
      (acceptor.handlePredicateSetUpdate D body).1 = acceptor) := by
  unfold handlePredicateSetUpdate
  split
  · exact .inr ⟨by simp, rfl⟩
  · split
    · exact .inr ⟨by simp, rfl⟩
    · split
      · exact .inr ⟨by simp, rfl⟩
      · split
        · exact .inr ⟨by simp, rfl⟩
        · refine .inl ⟨rfl, ?_⟩
          rw [appliedBodies_forward]
          simp [appliedBodies]

end ChainAcceptor

namespace Link

variable {Key ω δ χ : Type}

def isApplied (record : Dispatched) : Bool :=
  isPredicate record.envelope && record.status == .ok

def applied (link : Link Key ω δ χ) : List Bytes :=
  (link.dispatched.filter isApplied).map (fun record => record.envelope.body)

def lastApplied (link : Link Key ω δ χ) : Option Bytes := link.applied.getLast?

end Link

namespace ChainAcceptor

variable {π ρ : Type} {D : Derivation π ρ}

theorem appliedBodies_dispatch (acceptor : ChainAcceptor ρ) (counter : UInt64)
    (envelope : ControlEnvelope) :
    (dispatch D acceptor envelope.bodyType envelope.body).1.appliedBodies =
      acceptor.appliedBodies ++
        if Link.isApplied ⟨counter, envelope,
            (dispatch D acceptor envelope.bodyType envelope.body).2⟩ then [envelope.body]
        else [] := by
  by_cases htype : envelope.bodyType = ControlBodyType.predicateSetUpdate.asByte
  · have hdispatch : dispatch D acceptor envelope.bodyType envelope.body =
        acceptor.handlePredicateSetUpdate D envelope.body := by
      rw [htype]
      rfl
    rw [hdispatch]
    rcases acceptor.handlePredicateSetUpdate_cases D envelope.body with
      ⟨hok, happlied⟩ | ⟨hrefused, hsame⟩
    · simp [happlied, hok, Link.isApplied, Link.isPredicate, htype]
    · simp [hsame, hrefused, Link.isApplied]
  · have hother : (dispatch D acceptor envelope.bodyType envelope.body).1 = acceptor := by
      unfold dispatch
      split
      · rfl
      · rfl
      · rfl
      · rename_i hkind
        exact absurd (ControlBodyType.asByte_of_fromByte hkind).symm htype
      all_goals rfl
    simp [hother, Link.isApplied, Link.isPredicate, htype]

end ChainAcceptor

namespace Link

variable {Key ω χ π ρ : Type} {A : Aead Key} {D : Derivation π ρ} {handle : Dispatcher χ}

variable {link : Link Key ω (ChainAcceptor ρ) χ}

theorem acceptor_change {next : Link Key ω (ChainAcceptor ρ) χ} {event : Event ω}
    {before : List Bytes} (h : link.acceptor.appliedBodies = before ++ link.applied)
    (hchange : Change A (ChainAcceptor.dispatch D) link event next) :
    next.acceptor.appliedBodies = before ++ next.applied := by
  cases hchange with
  | enqueued => exact h
  | retransmitted => exact h
  | clientSpoke => exact h
  | acked => exact h
  | serverSpoke => exact h
  | duplicate => exact h
  | @dispatched index now packet envelope acceptor status hpacket hpayload hfresh hseen hdispatch =>
      have happlied := link.acceptor.appliedBodies_dispatch (D := D) packet.counter envelope
      rw [hdispatch, h] at happlied
      rw [happlied, List.append_assoc]
      congr 1
      unfold applied
      rw [List.filter_append, List.map_append]
      congr 1
      by_cases hisApplied : isApplied ⟨packet.counter, envelope, status⟩ = true
      · simp [hisApplied]
      · simp [hisApplied]

/--
In every run over a session with a chain acceptor, the supervisor was given
exactly the predicate sets that were acked `Ok`, in that order.
-/
theorem acceptor_applied {client server : Session Key} (hcrossed : Crossed client server)
    {src : SocketAddr} {acceptor : ChainAcceptor ρ} {handler : χ} {events : List (Event ω)}
    (hrun : run (step A (ChainAcceptor.dispatch D) handle)
      (start client server src acceptor handler) events = some link) :
    link.acceptor.appliedBodies = acceptor.appliedBodies ++ link.applied := by
  refine (run_invariant (step A (ChainAcceptor.dispatch D) handle)
    (P := fun link => Inv A link ∧
      link.acceptor.appliedBodies = acceptor.appliedBodies ++ link.applied) ?_
    ⟨inv_start hcrossed src acceptor handler, ?_⟩ hrun).2
  · rintro link event next ⟨hinv, happlied⟩ hstep
    exact ⟨inv_of_step hinv hstep,
      acceptor_change happlied (change_of_step hinv.toWired hstep)⟩
  · exact (List.append_nil _).symm

theorem acceptor_applied_toy :
    ∃ link, run (step Aead.transparent (ChainAcceptor.dispatch ⟨some, fun _ => .x25519 .zero, .ok⟩)
        ignoreBody) (toyStart ⟨true, none, [], ∅, []⟩)
        [.send 2 [1] 0 0, .deliverToServer 0 0, .deliverToClient 0] = some link ∧
      link.acceptor.appliedBodies = link.applied :=
  (Option.isSome_iff_exists.1 (by rfl)).imp fun _ hrun => ⟨hrun, acceptor_applied crossed_toy hrun⟩

end Link

end Yggdrasil.Chain
