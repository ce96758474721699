import Yggdrasil.NatTraversal.Moves

/-!
# PCP nonces

A gateway matches a renewal or a release with its mapping by the nonce, so a
mapping made over PCP is only as good as the mapper's memory of its nonce.  The
memory is kept twice, with the mapping and in the table of nonces, and the two
agree until a PCP response reveals that the gateway has lost its state.
-/

namespace Yggdrasil.NatTraversal

open Foundation Ratatoskr

namespace Reconciler

structure NoncesAgree (r : Reconciler) : Prop where
  keyed : ∀ {key mapping}, r.mappings.lookup key = some mapping → mapping.target.key = key
  stored : ∀ {key mapping}, r.mappings.lookup key = some mapping → mapping.protocolUsed = .pcp →
    ∃ nonce, mapping.pcpNonce = some nonce ∧ r.nonces.lookup key = some nonce

variable {r : Reconciler}

theorem noncesAgree_of_empty (h : r.mappings = ∅) : r.NoncesAgree := by
  refine ⟨fun hheld => ?_, fun hheld => ?_⟩
  · rw [h, AList.lookup_empty] at hheld
    cases hheld
  · rw [h, AList.lookup_empty] at hheld
    cases hheld

theorem noncesAgree_move {r' : Reconciler} (hmove : Move r r') (hepochs : .epochReset .pcp ∉ r'.log)
    (h : r.NoncesAgree) : r'.NoncesAgree := by
  cases hmove with
  | tune hsame =>
      refine ⟨fun hheld => h.keyed (hsame.mappings ▸ hheld), fun hheld hpcp => ?_⟩
      rw [hsame.nonces]
      exact h.stored (hsame.mappings ▸ hheld) hpcp
  | openSocket => exact ⟨h.keyed, h.stored⟩
  | drawNonce nonce hnew =>
      refine ⟨h.keyed, fun hheld hpcp => ?_⟩
      obtain ⟨stored, hpcpNonce, hstored⟩ := h.stored hheld hpcp
      refine ⟨stored, hpcpNonce, ?_⟩
      rw [AList.lookup_insert_ne, hstored]
      rintro rfl
      cases hnew.symm.trans hstored
  | call => exact ⟨h.keyed, h.stored⟩
  | confirm mapping hsocket hnonce =>
      constructor
      · intro key other hheld
        rcases of_lookup_insert hheld with ⟨rfl, rfl⟩ | hold
        · rfl
        · exact h.keyed hold
      · intro key other hheld hpcp
        rcases of_lookup_insert hheld with ⟨rfl, rfl⟩ | hold
        · obtain ⟨nonce, hpcpNonce, hstored | hreset⟩ := hnonce hpcp
          · exact ⟨nonce, hpcpNonce, hstored⟩
          · exact absurd (List.mem_cons_of_mem _ hreset) hepochs
        · exact h.stored hold hpcp
  | forget =>
      refine ⟨fun hheld => h.keyed (of_lookup_erase hheld).2, fun hheld hpcp => ?_⟩
      exact h.stored (of_lookup_erase hheld).2 hpcp
  | reset => exact noncesAgree_of_empty rfl
  | release hheld nonce sent =>
      refine ⟨fun hother => h.keyed (of_lookup_erase hother).2, fun hother hpcp => ?_⟩
      obtain ⟨hne, hold⟩ := of_lookup_erase hother
      rw [h.keyed hheld, AList.lookup_erase_ne hne]
      exact h.stored hold hpcp

theorem noncesAgree_path {r' : Reconciler} (hpath : Path r r') (hepochs : .epochReset .pcp ∉ r'.log)
    (h : r.NoncesAgree) : r'.NoncesAgree := by
  refine hpath.invariant (P := fun reached => .epochReset .pcp ∉ reached.log → reached.NoncesAgree)
    ?_ (fun _ => h) hepochs
  intro before after hmove hbefore hafter
  exact noncesAgree_move hmove hafter
    (hbefore fun hreset => hafter (hmove.log_suffix.subset hreset))

variable {world : World}

theorem noncesAgree_rebuildTable (hepochs : .epochReset .pcp ∉ (r.rebuildTable world).log) :
    (r.rebuildTable world).NoncesAgree := by
  have hacts := Acts.foldl (acts_sendMapRequest world) (r.targets world) r.clearTable
  have hagree := noncesAgree_path hacts.path (fun hreset => hepochs (List.mem_cons_of_mem _ hreset))
    (noncesAgree_of_empty rfl)
  exact ⟨hagree.keyed, hagree.stored⟩

theorem noncesAgree_releaseAllWithDeadline (h : r.NoncesAgree) :
    (r.releaseAllWithDeadline world).NoncesAgree := by
  unfold releaseAllWithDeadline
  split
  · exact h
  · exact noncesAgree_of_empty rfl

theorem noncesAgree_run {params : NatMapperParams} {rules : RuleSet} {events : List Event}
    {final : Reconciler}
    (hrun : run (step world) (start world params rules) events = some final)
    (hepochs : .epochReset .pcp ∉ final.log) : final.NoncesAgree := by
  refine run_invariant (step world)
    (P := fun reached => .epochReset .pcp ∉ reached.log → reached.NoncesAgree) ?_ ?_ hrun hepochs
  · intro r event next hr hstep hnext
    have hcases := step_cases
      (P := fun reached => .epochReset .pcp ∉ reached.log → reached.NoncesAgree)
      (fun hact hbefore hafter => noncesAgree_path hact.path hafter
        (hbefore fun hreset => hafter (hact.path.log_suffix.subset hreset)))
      (fun _ hrebuilt => noncesAgree_rebuildTable hrebuilt) hr hstep
    rcases hcases with ⟨hkept, -⟩ | rfl
    · exact hkept hnext
    · have hagree : (r.releaseAllWithDeadline world).NoncesAgree :=
        noncesAgree_releaseAllWithDeadline (hr fun hreset =>
          hnext ((log_suffix_releaseAllWithDeadline world r).subset hreset))
      exact ⟨hagree.keyed, hagree.stored⟩
  · exact fun hstart => noncesAgree_path (acts_start world params rules).path hstart
      (noncesAgree_of_empty rfl)

/--
The one nonce of a mapping: the gateway has it from the request it confirmed, a
renewal looks it up in the table of nonces, a release takes it from the mapping.
-/
def CarriesNonce (world : World) (r : Reconciler) (mapping : ActiveMapping) (nonce : Nonce) : Prop :=
  mapping.pcpNonce = some nonce ∧
    r.nonces.lookup mapping.target.key = some nonce ∧
    (r.nonceFor world mapping.target.key).1 = nonce ∧
    r.releaseNonce mapping = nonce ∧
    shutdownNonce mapping = nonce

end Reconciler

def answering (answers : List (Nat × Bytes)) (draw : Nat) : Attempt :=
  { sent := .ok ()
    reception := match answers.lookup draw with
      | some bytes => .packet bytes
      | none => .elapsed }

def plainWorld (attempt : Nat → Attempt) : World where
  attempt := attempt
  nonce draw := BitVec.ofNat 96 draw
  clock draw := if draw ≤ 6 then 0 else 3600000 + draw * 60000
  bind _ := .ok ()
  unmap _ := true
  keyOrder _ keys := keys
  targetOrder _ targets := targets
  clock_mono first second h := by
    dsimp only
    split_ifs <;> omega
  keyOrder_perm _ keys := .refl keys
  targetOrder_perm _ targets := .refl targets

def sshRules : RuleSet where
  rules := [⟨"ssh", ⟨.v4 0xC0A8010A, 22⟩, .tcp, some 22, none, none, none⟩]
  routes := []
  bindable := by decide
  names_nodup := by decide
  claims_nodup := by decide

def pcpParams : NatMapperParams where
  mode := .pcp
  localSource := 0xC0A8010A
  acceptListen := none
  httpsListen := ⟨.v4 0, 443⟩
  httpsHttp3 := false
  enabled := by decide

def pcpGranted (nonce : Nonce) (epoch : UInt32) : Bytes :=
  Pcp.synthesize ⟨.success, epoch, 7200, nonce, .tcp, 22, 22, 0xCB00712A⟩

namespace Reconciler

theorem pcp_mappings_carry_nonce (world : World) (params : NatMapperParams) (rules : RuleSet)
    (events : List Event) (final : Reconciler)
    (hrun : run (step world) (start world params rules) events = some final)
    (hepochs : .epochReset .pcp ∉ final.log) (key : MappingKey) (mapping : ActiveMapping)
    (hheld : final.mappings.lookup key = some mapping) (hpcp : mapping.protocolUsed = .pcp) :
    mapping.target.key = key ∧ ∃ nonce, final.CarriesNonce world mapping nonce := by
  have hagree := noncesAgree_run hrun hepochs
  obtain ⟨nonce, hpcpNonce, hstored⟩ := hagree.stored hheld hpcp
  have hkey := hagree.keyed hheld
  refine ⟨hkey, nonce, hpcpNonce, hkey ▸ hstored, ?_, ?_, ?_⟩
  · rw [nonceFor, hkey, hstored]
  · rw [releaseNonce, hpcpNonce, Option.getD_some]
  · rw [shutdownNonce, hpcpNonce, Option.getD_some]

def steadyWorld : World :=
  plainWorld (answering [(4, pcpGranted 3 1000), (9, pcpGranted 3 4600)])

theorem renewed_mapping_carries_nonce :
    ∃ final mapping,
      run (step steadyWorld) (start steadyWorld pcpParams sshRules) [.tick sshRules] =
        some final ∧
      final.mappings.lookup (.tcp, 22) = some mapping ∧
      mapping.target.key = (.tcp, 22) ∧ ∃ nonce, final.CarriesNonce steadyWorld mapping nonce := by
  refine ⟨_, _, rfl, rfl, ?_⟩
  exact pcp_mappings_carry_nonce steadyWorld pcpParams sshRules [.tick sshRules] _ rfl
    (by decide) (.tcp, 22) _ rfl rfl

def restartedWorld : World :=
  plainWorld (answering [(4, pcpGranted 3 1000), (9, pcpGranted 3 0), (12, pcpGranted 11 1)])

/--
The renewal's response clears both tables and the mapping is requested again
with a new nonce, which stays in the table of nonces; then the mapping is
recorded with the nonce of the renewal.
-/
theorem restart_splits_nonces :
    ∃ final mapping,
      run (step restartedWorld) (start restartedWorld pcpParams sshRules) [.tick sshRules] =
        some final ∧
      final.mappings.lookup (.tcp, 22) = some mapping ∧
      mapping.protocolUsed = .pcp ∧
      mapping.pcpNonce = some 3 ∧
      final.nonces.lookup (.tcp, 22) = some 11 ∧
      (final.nonceFor restartedWorld mapping.target.key).1 = 11 ∧
      final.releaseNonce mapping = 3 :=
  ⟨_, _, rfl, rfl, rfl, rfl, rfl, rfl, rfl⟩

end Reconciler

end Yggdrasil.NatTraversal
