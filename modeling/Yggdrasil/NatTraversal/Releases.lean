import Yggdrasil.NatTraversal.Nonces

/-!
# Mappings the gateway holds

A mapping the gateway has confirmed is its to keep until it is released, is
refused for good or is lost with the gateway's state.  The log says which
mappings these are; the mapper can only release the ones in its table.
-/

namespace Yggdrasil.NatTraversal

open Foundation Ratatoskr

def refused (request : MapRequest) : Except RpcError MapResponse → Bool
  | .error _ => false
  | .ok response =>
      match response.error? with
      | none => false
      | some error => !error.isTransient && response.key == request.key

def heldByGateway : List LogEntry → MappingKey → Bool
  | [], _ => false
  | .confirmed confirmed :: earlier, key => confirmed == key || heldByGateway earlier key
  | .epochReset _ :: _, _ => false
  | .released request sent :: earlier, key =>
      !(sent && request.key == key) && heldByGateway earlier key
  | .call request outcome :: earlier, key =>
      !(refused request outcome && request.key == key) && heldByGateway earlier key
  | .cleared :: earlier, key | .rebuilt :: earlier, key => heldByGateway earlier key

def rebuilding : List LogEntry → Bool
  | [] => false
  | .cleared :: _ => true
  | .rebuilt :: _ => false
  | _ :: earlier => rebuilding earlier

/--
What must not happen to a mapping the gateway holds: a request for it fails
transiently while a probe rebuilds the table, its response is garbage or a
permanent error for another mapping, or its release is not sent.
-/
def benign (earlier : List LogEntry) : LogEntry → Bool
  | .call request outcome =>
      !heldByGateway earlier request.key ||
        match callError outcome with
        | none => true
        | some error => if error.isTransient then !rebuilding earlier else refused request outcome
  | .released request sent => !heldByGateway earlier request.key || sent
  | _ => true

def dependable : List LogEntry → Bool
  | [] => true
  | entry :: earlier => benign earlier entry && dependable earlier

variable {earlier : List LogEntry} {request : MapRequest} {sent : Bool}

theorem dependable_of_suffix {log : List LogEntry} (hsuffix : earlier <:+ log)
    (h : dependable log = true) : dependable earlier = true := by
  induction log with
  | nil => rwa [List.suffix_nil.1 hsuffix]
  | cons entry rest ih =>
      rcases List.suffix_cons_iff.1 hsuffix with rfl | hrest
      · exact h
      · exact ih hrest (Bool.and_eq_true_iff.1 h).2

theorem heldByGateway_of_call {outcome : Except RpcError MapResponse} {key : MappingKey}
    (h : heldByGateway (.call request outcome :: earlier) key = true) :
    heldByGateway earlier key = true ∧ ¬(refused request outcome = true ∧ request.key = key) := by
  obtain ⟨hopen, hearlier⟩ := Bool.and_eq_true_iff.1 h
  exact ⟨hearlier, by simpa [-not_and, not_and_or] using hopen⟩

theorem heldByGateway_of_released {key : MappingKey}
    (h : heldByGateway (.released request sent :: earlier) key = true) :
    heldByGateway earlier key = true ∧ ¬(sent = true ∧ request.key = key) := by
  obtain ⟨hopen, hearlier⟩ := Bool.and_eq_true_iff.1 h
  exact ⟨hearlier, by simpa [-not_and, not_and_or] using hopen⟩

theorem sent_of_dependable (h : dependable (.released request sent :: earlier) = true)
    (hheld : heldByGateway earlier request.key = true) : sent = true := by
  have hbenign := (Bool.and_eq_true_iff.1 h).1
  simpa [benign, hheld] using hbenign

theorem not_held_of_released (h : dependable (.released request sent :: earlier) = true) :
    heldByGateway (.released request sent :: earlier) request.key = false := by
  rw [Bool.eq_false_iff]
  intro hheld
  obtain ⟨hearlier, hunsent⟩ := heldByGateway_of_released hheld
  exact hunsent ⟨sent_of_dependable h hearlier, rfl⟩

namespace Reconciler

/--
Every mapping the gateway holds is in the table or is yet to be requested again
by the probe that emptied it.
-/
structure Kept (pending : List MappingKey) (r : Reconciler) : Prop where
  keyed : ∀ {key mapping}, r.mappings.lookup key = some mapping → mapping.target.key = key
  held : ∀ {key}, heldByGateway r.log key = true → key ∈ r.mappings ∨ key ∈ pending
  socket : ∀ {key}, heldByGateway r.log key = true → r.rpcSocket = true

variable {pending : List MappingKey} {r r' : Reconciler}

theorem not_held_of_failed (h : r.Kept pending) (hdependable : dependable r.log = true)
    {key : MappingKey} {error : RpcError} (hfailed : r.Failed key error)
    (hcase : error.isTransient = false ∨ rebuilding r.log = true) :
    heldByGateway r.log key = false := by
  rw [Bool.eq_false_iff]
  intro hheld
  rcases hfailed with ⟨-, hsocket⟩ | ⟨request, outcome, earlier, hlog, rfl, herror⟩
  · rw [h.socket hheld] at hsocket
    cases hsocket
  · rw [hlog] at hheld hdependable hcase
    obtain ⟨hearlier, hunrefused⟩ := heldByGateway_of_call hheld
    have hbenign := (Bool.and_eq_true_iff.1 hdependable).1
    simp only [benign, hearlier, herror, Bool.not_true, Bool.false_or] at hbenign
    split at hbenign
    · rename_i htransient
      rcases hcase with hpermanent | hrebuilding
      · cases htransient.symm.trans hpermanent
      · rw [show rebuilding earlier = true from hrebuilding] at hbenign
        cases hbenign
    · exact hunrefused ⟨hbenign, rfl⟩

theorem kept_move (hmove : Move r r') (hdependable : dependable r'.log = true)
    (h : r.Kept pending) : r'.Kept pending := by
  cases hmove with
  | tune hsame =>
      refine ⟨fun hlookup => h.keyed (hsame.mappings ▸ hlookup), fun hheld => ?_, fun hheld => ?_⟩
      · rw [hsame.mappings]
        exact h.held (hsame.log ▸ hheld)
      · rw [hsame.rpcSocket]
        exact h.socket (hsame.log ▸ hheld)
  | openSocket => exact ⟨h.keyed, h.held, fun _ => rfl⟩
  | drawNonce => exact ⟨h.keyed, h.held, h.socket⟩
  | call =>
      exact ⟨h.keyed, fun hheld => h.held (heldByGateway_of_call hheld).1,
        fun hheld => h.socket (heldByGateway_of_call hheld).1⟩
  | confirm mapping hsocket =>
      refine ⟨fun hlookup => ?_, fun {key} hheld => ?_, fun _ => hsocket⟩
      · rcases of_lookup_insert hlookup with ⟨rfl, rfl⟩ | hold
        · rfl
        · exact h.keyed hold
      · rw [AList.mem_insert]
        rcases Bool.or_eq_true_iff.1 hheld with hkey | hold
        · exact .inl (.inl (eq_of_beq hkey).symm)
        · exact (h.held hold).imp_left .inr
  | @forget key error hfailed hpermanent =>
      have hended := not_held_of_failed h hdependable hfailed (.inl hpermanent)
      refine ⟨fun hlookup => h.keyed (of_lookup_erase hlookup).2, fun {other} hheld => ?_, h.socket⟩
      refine (h.held hheld).imp_left fun hmem => AList.mem_erase.2 ⟨?_, hmem⟩
      rintro rfl
      cases hheld.symm.trans hended
  | reset =>
      refine ⟨fun hlookup => ?_, fun hheld => ?_, fun hheld => ?_⟩
      · cases hlookup
      · cases hheld
      · cases hheld
  | @release key mapping hlookup nonce sent =>
      have hkey : (unmapRequest mapping.protocolUsed mapping.target nonce).key = key := by
        rw [key_unmapRequest, h.keyed hlookup]
      have hended := not_held_of_released hdependable
      refine ⟨fun hother => h.keyed (of_lookup_erase hother).2, fun {other} hheld => ?_,
        fun hheld => h.socket (heldByGateway_of_released hheld).1⟩
      refine (h.held (heldByGateway_of_released hheld).1).imp_left fun hmem =>
        AList.mem_erase.2 ⟨?_, hmem⟩
      rintro rfl
      rw [hkey] at hended
      cases hheld.symm.trans hended

theorem kept_path (hpath : Path r r') (hdependable : dependable r'.log = true)
    (h : r.Kept pending) : r'.Kept pending := by
  refine hpath.invariant (P := fun reached => dependable reached.log = true → reached.Kept pending)
    ?_ (fun _ => h) hdependable
  intro before after hmove hbefore hafter
  exact kept_move hmove hafter (hbefore (dependable_of_suffix hmove.log_suffix hafter))

theorem rebuilding_move (hmove : Move r r') : rebuilding r'.log = rebuilding r.log := by
  cases hmove with
  | tune hsame => rw [hsame.log]
  | _ => rfl

theorem rebuilding_path (hpath : Path r r') : rebuilding r'.log = rebuilding r.log :=
  hpath.invariant (P := fun reached => rebuilding reached.log = rebuilding r.log)
    (fun hmove h => (rebuilding_move hmove).trans h) rfl

variable {world : World}

theorem kept_recreate {target : MappingTarget} (h : r.Kept (target.key :: pending))
    (hrebuilding : rebuilding r.log = true)
    (hdependable : dependable (r.sendMapRequest world target).log = true) :
    (r.sendMapRequest world target).Kept pending := by
  have hkept := kept_path (acts_sendMapRequest world r target).path hdependable h
  refine ⟨hkept.keyed, fun {key} hheld => ?_, hkept.socket⟩
  rcases hkept.held hheld with hmem | hpending
  · exact .inl hmem
  · rcases List.mem_cons.1 hpending with rfl | hrest
    · have hrequested := requested_sendMapRequest world r target
      generalize r.sendMapRequest world target = sent at hrequested hdependable hheld ⊢
      cases hrequested with
      | granted => exact .inl ((AList.mem_insert _).2 (.inl rfl))
      | failed hacts _ hrefused =>
          rw [log_failed] at hdependable hheld
          have hended := not_held_of_failed (kept_path hacts.path hdependable h) hdependable
            hrefused.failed (.inr ((rebuilding_path hacts.path).trans hrebuilding))
          cases hheld.symm.trans hended
    · exact .inr hrest

theorem kept_recreateAll {targets : List MappingTarget} (h : r.Kept (targets.map MappingTarget.key))
    (hrebuilding : rebuilding r.log = true)
    (hdependable : dependable (targets.foldl (sendMapRequest world) r).log = true) :
    (targets.foldl (sendMapRequest world) r).Kept [] := by
  induction targets generalizing r with
  | nil => exact h
  | cons target rest ih =>
      have hrest := Acts.foldl (acts_sendMapRequest world) rest (r.sendMapRequest world target)
      refine ih (kept_recreate h hrebuilding ?_) ?_ hdependable
      · exact dependable_of_suffix hrest.log_suffix hdependable
      · exact (rebuilding_path (acts_sendMapRequest world r target).path).trans hrebuilding

theorem kept_rebuildTable (h : r.Kept [])
    (hdependable : dependable (r.rebuildTable world).log = true) :
    (r.rebuildTable world).Kept [] := by
  have hcleared : r.clearTable.Kept ((r.targets world).map MappingTarget.key) := by
    refine ⟨fun hlookup => ?_, fun {key} hheld => .inr ?_, h.socket⟩
    · cases hlookup
    · obtain ⟨mapping, hlookup⟩ := mem_iff_lookup.1 ((h.held hheld).resolve_right (by simp))
      have hentry := (mem_entries_iff r.mappings).2 hlookup
      refine List.mem_map.2 ⟨mapping.target, ?_, h.keyed hlookup⟩
      exact (world.targetOrder_perm _ _).mem_iff.2 (List.mem_map.2 ⟨_, hentry, rfl⟩)
  have hkept := kept_recreateAll hcleared rfl (Bool.and_eq_true_iff.1 hdependable).2
  exact ⟨hkept.keyed, hkept.held, hkept.socket⟩

theorem held_sendUnmaps {mappings : List ActiveMapping}
    (hdependable : dependable (r.sendUnmaps world mappings).log = true) {key : MappingKey}
    (hheld : heldByGateway (r.sendUnmaps world mappings).log key = true) :
    heldByGateway r.log key = true ∧ ∀ mapping ∈ mappings, mapping.target.key ≠ key := by
  induction mappings generalizing r with
  | nil => exact ⟨hheld, fun mapping hmem => by cases hmem⟩
  | cons mapping rest ih =>
      obtain ⟨hsent, hrest⟩ := ih hdependable hheld
      have hfirst : dependable (.released
          (unmapRequest mapping.protocolUsed mapping.target (shutdownNonce mapping))
          (r.rpcSocket && world.unmap r.drawn) :: r.log) = true :=
        dependable_of_suffix
          (log_suffix_sendUnmaps world (r.sendUnmap world mapping (shutdownNonce mapping)) rest)
          hdependable
      have hended := not_held_of_released hfirst
      refine ⟨(heldByGateway_of_released hsent).1, ?_⟩
      rw [List.forall_mem_cons]
      refine ⟨?_, hrest⟩
      rintro rfl
      rw [key_unmapRequest] at hended
      cases hsent.symm.trans hended

theorem none_held_releaseAllWithDeadline (h : r.Kept [])
    (hdependable : dependable (r.releaseAllWithDeadline world).log = true) (key : MappingKey) :
    heldByGateway (r.releaseAllWithDeadline world).log key = false := by
  rw [Bool.eq_false_iff]
  intro hheld
  unfold releaseAllWithDeadline at hdependable hheld
  split at hdependable
  · rename_i hnothing
    rw [if_pos hnothing] at hheld
    have hmem : key ∈ r.mappings := (h.held hheld).resolve_right (by simp)
    rcases hnothing with hempty | hsocket
    · exact entries_ne_nil_of_mem hmem hempty
    · rw [h.socket hheld] at hsocket
      cases hsocket
  · rename_i hsome
    rw [if_neg hsome] at hheld
    obtain ⟨hbefore, hothers⟩ := held_sendUnmaps hdependable hheld
    obtain ⟨mapping, hlookup⟩ := mem_iff_lookup.1 ((h.held hbefore).resolve_right (by simp))
    refine hothers mapping ?_ (h.keyed hlookup)
    exact List.mem_map.2 ⟨⟨key, mapping⟩, (mem_entries_iff r.mappings).2 hlookup, rfl⟩

theorem kept_of_none_held (hempty : r.mappings = ∅) (hnone : ∀ key, heldByGateway r.log key = false)
    (pending : List MappingKey) : r.Kept pending := by
  have never : ∀ {key}, heldByGateway r.log key ≠ true := by
    intro key
    rw [hnone key]
    decide
  refine ⟨fun hlookup => ?_, fun hheld => absurd hheld never, fun hheld => absurd hheld never⟩
  rw [hempty, AList.lookup_empty] at hlookup
  cases hlookup

theorem kept_or_stopped {params : NatMapperParams} {rules : RuleSet} {events : List Event}
    {final : Reconciler}
    (hrun : run (step world) (start world params rules) events = some final)
    (hdependable : dependable final.log = true) :
    (final.running = true ∧ final.Kept []) ∨
      (final.running = false ∧ ∀ key, heldByGateway final.log key = false) := by
  refine run_invariant (step world)
    (P := fun reached => dependable reached.log = true →
      (reached.running = true ∧ reached.Kept []) ∨
        (reached.running = false ∧ ∀ key, heldByGateway reached.log key = false))
    ?_ ?_ hrun hdependable
  · intro r event next hr hstep hnext
    have hrunning := running_of_step hstep
    have hkept : dependable r.log = true → r.Kept [] := by
      intro hbefore
      rcases hr hbefore with ⟨-, hkept⟩ | ⟨hstopped, -⟩
      · exact hkept
      · cases hrunning.symm.trans hstopped
    have hcases := step_cases
      (P := fun reached => reached.running = true ∧
        (dependable reached.log = true → reached.Kept []))
      (fun hact hbefore => ⟨hact.path.running.trans hbefore.1, fun hafter =>
        kept_path hact.path hafter
          (hbefore.2 (dependable_of_suffix hact.path.log_suffix hafter))⟩)
      (fun {before} hbefore => ⟨(running_rebuildTable world before).trans hbefore.1,
        fun hafter => kept_rebuildTable (hbefore.2
          (dependable_of_suffix (log_suffix_rebuildTable world before) hafter)) hafter⟩)
      ⟨hrunning, hkept⟩ hstep
    rcases hcases with ⟨⟨hstill, hafter⟩, -⟩ | rfl
    · exact .inl ⟨hstill, hafter hnext⟩
    · have hbefore := dependable_of_suffix (log_suffix_releaseAllWithDeadline world r) hnext
      exact .inr ⟨rfl, none_held_releaseAllWithDeadline (hkept hbefore) hnext⟩
  · intro hstart
    have hacts := acts_start world params rules
    refine .inl ⟨hacts.running, kept_path hacts.path hstart ?_⟩
    exact kept_of_none_held rfl (fun _ => rfl) []

theorem no_forgotten_mapping (world : World) (params : NatMapperParams) (rules : RuleSet)
    (events : List Event) (final : Reconciler)
    (hrun : run (step world) (start world params rules) events = some final)
    (hdependable : dependable final.log = true) :
    (∀ key, heldByGateway final.log key = true → key ∈ final.mappings) ∧
      (final.running = false → ∀ key, heldByGateway final.log key = false) := by
  rcases kept_or_stopped hrun hdependable with ⟨hrunning, hkept⟩ | ⟨-, hnone⟩
  · refine ⟨fun key hheld => (hkept.held hheld).resolve_right (by simp), fun hstopped => ?_⟩
    cases hrunning.symm.trans hstopped
  · refine ⟨fun key hheld => ?_, fun _ => hnone⟩
    cases hheld.symm.trans (hnone key)

/-- The mapping is granted, renewed and, at shutdown, released. -/
theorem released_mapping_not_forgotten :
    ∃ final,
      run (step steadyWorld) (start steadyWorld pcpParams sshRules) [.tick sshRules, .shutdown] =
        some final ∧
      (∀ key, heldByGateway final.log key = true → key ∈ final.mappings) ∧
      (final.running = false → ∀ key, heldByGateway final.log key = false) := by
  refine ⟨_, rfl, ?_⟩
  exact no_forgotten_mapping steadyWorld pcpParams sshRules [.tick sshRules, .shutdown] _ rfl
    (by decide)

def silentWorld : World := plainWorld (answering [(4, pcpGranted 3 1000)])

/--
Three renewals time out, the mapper backs off, and its first probe forgets the
mapping: it is not in the table when the mapper shuts down, no release was ever
sent and the gateway still holds it.
-/
theorem probe_forgets_mapping :
    ∃ begun mapping waiting probed final,
      start silentWorld pcpParams sshRules = begun ∧
      begun.mappings.lookup (.tcp, 22) = some mapping ∧
      run (step silentWorld) begun [.tick sshRules, .tick sshRules, .tick sshRules] =
        some waiting ∧
      waiting.state = .backoff ∧
      waiting.mappings.lookup (.tcp, 22) = some mapping ∧
      step silentWorld waiting (.tick sshRules) = some probed ∧
      probed.mappings.lookup (.tcp, 22) = none ∧
      step silentWorld probed .shutdown = some final ∧
      heldByGateway final.log (.tcp, 22) = true ∧
      final.log.all (fun
        | .released _ _ => false
        | .epochReset _ => false
        | .call _ (.ok response) => response.error?.isNone
        | _ => true) = true ∧
      silentWorld.clock final.drawn < mapping.lastRenewed + mapping.assignedLifetime := by
  refine ⟨_, _, _, _, _, rfl, rfl, rfl, rfl, rfl, rfl, rfl, rfl, ?_, ?_, ?_⟩
  · decide
  · decide
  · decide

end Reconciler

end Yggdrasil.NatTraversal
