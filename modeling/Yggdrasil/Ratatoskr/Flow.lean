import Yggdrasil.Foundation.Log
import Yggdrasil.Ratatoskr.SessionTrace

/-!
# One direction of an established session

A `Flow` ties the sending half of one session to the receiving half of the
other and to the log of every packet sent so far.  Writing extends the log;
reading, in any order and any number of times, leaves the tie intact.
-/

namespace Yggdrasil.Ratatoskr

open Foundation

variable {Key : Type} (A : Aead Key)

/-- A read accepts one fresh counter or changes nothing but the receiving nonce. -/
inductive Session.Reads (session : Session Key) : Session Key → Prop
  | same : Reads session session
  | accepted {counter : UInt64} : session.Fresh counter →
      Reads session (session.accept counter)
  | rejected (nonce : UInt64) : Reads session (session.retune nonce)

variable {session : Session Key}

theorem Session.Reads.fresh {session' : Session Key} (h : session.Reads session') {counter : UInt64}
    (hfresh : session'.Fresh counter) : session.Fresh counter := by
  cases h with
  | same => exact hfresh
  | accepted hnew => exact (Fresh.of_accept hnew hfresh).2
  | rejected nonce => exact hfresh

@[simp] theorem Session.recvKey_emit (session : Session Key) (payload : Payload) :
    (session.emit A payload).1.transport.recvKey = session.transport.recvKey := by
  rcases session.emit_cases A payload with ⟨-, hemit⟩ | hemit
  · rw [hemit]
    rfl
  · rw [hemit]

theorem Session.fresh_emit (session : Session Key) (payload : Payload) (counter : UInt64) :
    (session.emit A payload).1.Fresh counter ↔ session.Fresh counter := by
  rcases session.emit_cases A payload with ⟨-, hemit⟩ | hemit
  · rw [hemit]
    rfl
  · rw [hemit]

theorem Session.fresh_emitAll (session : Session Key) (payloads : List Payload)
    (counter : UInt64) :
    (session.emitAll A payloads).1.Fresh counter ↔ session.Fresh counter := by
  induction payloads generalizing session with
  | nil => rfl
  | cons payload rest ih =>
      exact (ih (session.emit A payload).1).trans (session.fresh_emit A payload counter)

theorem Session.payload_of_mem_emit {payload : Payload} {packet : Sent}
    (h : packet ∈ (session.emit A payload).2) : packet.payload = payload := by
  rcases session.emit_cases A payload with ⟨-, hemit⟩ | hemit
  · rw [hemit] at h
    rw [List.mem_singleton.1 h]
  · rw [hemit] at h
    simp at h

theorem Session.payload_of_mem_emitAll {payloads : List Payload} {packet : Sent}
    (h : packet ∈ (session.emitAll A payloads).2) : packet.payload ∈ payloads := by
  induction payloads generalizing session with
  | nil => simp [emitAll] at h
  | cons payload rest ih =>
      rcases List.mem_append.1 h with hfirst | hrest
      · rw [payload_of_mem_emit A hfirst]
        exact List.mem_cons_self
      · exact List.mem_cons_of_mem _ (ih hrest)

structure Flow (sender receiver : Session Key) (log : List Sent) : Prop where
  key_eq : receiver.transport.recvKey = sender.transport.sendKey
  sessionId_eq : receiver.sessionId = sender.sessionId
  produced : ∀ packet ∈ log,
    Session.Produced A receiver.sessionId receiver.transport.recvKey packet
  sorted : log.Pairwise (fun earlier later => earlier.counter < later.counter)
  below : ∀ packet ∈ log, packet.counter < sender.sendingCounter

namespace Flow

variable {A} {sender receiver : Session Key} {log : List Sent}

theorem nil (hkey : receiver.transport.recvKey = sender.transport.sendKey)
    (hid : receiver.sessionId = sender.sessionId) : Flow A sender receiver [] :=
  ⟨hkey, hid, by simp, List.Pairwise.nil, by simp⟩

theorem emit (h : Flow A sender receiver log) (payload : Payload) :
    Flow A (sender.emit A payload).1 receiver (log ++ (sender.emit A payload).2) := by
  rcases sender.emit_cases A payload with ⟨hwrite, hemit⟩ | hemit
  · rw [hemit]
    have hlt := Session.lt_succ_of_usable hwrite.2
    refine ⟨h.key_eq, h.sessionId_eq, ?_, ?_, ?_⟩
    · refine forall_mem_concat h.produced ?_
      rw [h.key_eq, h.sessionId_eq]
      exact ⟨rfl, hwrite.1, hwrite.2⟩
    · exact pairwise_concat h.sorted h.below
    · refine forall_mem_concat ?_ hlt
      intro packet hpacket
      change packet.counter < sender.sendingCounter + 1
      have := h.below packet hpacket
      grind
  · rw [hemit, List.append_nil]
    exact h

theorem emitAll (h : Flow A sender receiver log) (payloads : List Payload) :
    Flow A (sender.emitAll A payloads).1 receiver (log ++ (sender.emitAll A payloads).2) := by
  induction payloads generalizing sender log with
  | nil => simpa [Session.emitAll] using h
  | cons payload rest ih =>
      have hrest := ih (h.emit payload)
      rw [List.append_assoc] at hrest
      exact hrest

theorem reads_receiver (h : Flow A sender receiver log) {receiver' : Session Key}
    (hreads : receiver.Reads receiver') : Flow A sender receiver' log := by
  cases hreads with
  | same => exact h
  | accepted => exact ⟨h.key_eq, h.sessionId_eq, h.produced, h.sorted, h.below⟩
  | rejected => exact ⟨h.key_eq, h.sessionId_eq, h.produced, h.sorted, h.below⟩

theorem reads_sender (h : Flow A sender receiver log) {sender' : Session Key}
    (hreads : sender.Reads sender') : Flow A sender' receiver log := by
  cases hreads with
  | same => exact h
  | accepted => exact ⟨h.key_eq, h.sessionId_eq, h.produced, h.sorted, h.below⟩
  | rejected => exact ⟨h.key_eq, h.sessionId_eq, h.produced, h.sorted, h.below⟩

theorem emit_receiver (h : Flow A sender receiver log) (payload : Payload) :
    Flow A sender (receiver.emit A payload).1 log := by
  rcases receiver.emit_cases A payload with ⟨-, hemit⟩ | hemit
  · rw [hemit]
    exact ⟨h.key_eq, h.sessionId_eq, h.produced, h.sorted, h.below⟩
  · rw [hemit]
    exact h

theorem emitAll_receiver (h : Flow A sender receiver log) (payloads : List Payload) :
    Flow A sender (receiver.emitAll A payloads).1 log := by
  induction payloads generalizing receiver with
  | nil => exact h
  | cons payload rest ih => exact ih (h.emit_receiver payload)

theorem related_of_lt {R : Sent → Sent → Prop} (h : Flow A sender receiver log)
    (hR : log.Pairwise R) {first second : Sent} (hfirst : first ∈ log)
    (hsecond : second ∈ log) (hlt : first.counter < second.counter) : R first second := by
  rcases precedes_total hfirst hsecond with rfl | hbefore | hafter
  · exact absurd hlt (by grind)
  · exact hbefore.related hR
  · have := hafter.related h.sorted
    exact absurd hlt (by grind)

end Flow

end Yggdrasil.Ratatoskr
