import Mathlib.Data.String.Basic
import Yggdrasil.Control.Walks
import Yggdrasil.Foundation.SortedMap
import Yggdrasil.Ratatoskr.Predicate

/-!
# `chain diff`

The operator's tool asks the daemon for one summary of the chain and compares
the predicates of each hop with those of the hop before it.  Scripts gate on
the exit code, which reports drift and nothing else: neither a walk that was
cut short nor a hop with another key than its predecessor dials changes it.
-/

namespace Yggdrasil.Control

open Foundation Ratatoskr

structure ChainIdentity where
  localKey : PubKey
  upstream : Option PubKey
  downstream : Option PubKey
  predicateOrigin : Option PubKey
  lastApplyUnix : Option Int
  deriving DecidableEq

structure DerivedRulesResponse where
  predicates : List Predicate
  derivedRules : List Rule
  chain : ChainIdentity
  deriving DecidableEq

abbrev DiffHop := ChainHop DerivedRulesResponse

structure PredicateChange where
  name : String
  localSide : Predicate
  upstream : Predicate
  deriving DecidableEq

/-- The local side publishes, the upstream side accepts. -/
structure PredicateDiff where
  missingUpstream : List Predicate
  extraUpstream : List Predicate
  changed : List PredicateChange
  localOrigin : Option PubKey
  upstreamOrigin : Option PubKey
  deriving DecidableEq

def PredicateDiff.isInSync (diff : PredicateDiff) : Bool :=
  diff.missingUpstream.isEmpty && diff.extraUpstream.isEmpty && diff.changed.isEmpty &&
    diff.localOrigin == diff.upstreamOrigin

structure HopReport where
  index : UInt32
  expectedPubkey : PubKey
  name : Option String
  view : DerivedRulesResponse
  drift : Option PredicateDiff

structure DiffReport where
  hops : List HopReport
  driftDetected : Bool
  isPartial : Bool

def byName (predicates : List Predicate) : List Predicate :=
  SortedMap.collect Predicate.name predicates

def predicateNamed (name : String) (map : List Predicate) : Option Predicate :=
  SortedMap.get? Predicate.name name map

def originsDiffer (publisher receiver : DerivedRulesResponse) : Bool :=
  match publisher.chain.predicateOrigin, receiver.chain.predicateOrigin with
  | some p, some r => p != r
  | _, _ => false

def computeDiff (publisher receiver : DerivedRulesResponse) : Option PredicateDiff :=
  if publisher.predicates.isEmpty && receiver.predicates.isEmpty then none
  else if originsDiffer publisher receiver then none
  else
    let localByName := byName publisher.predicates
    let upstreamByName := byName receiver.predicates
    some
      { missingUpstream := localByName.filter (fun predicate =>
          (predicateNamed predicate.name upstreamByName).isNone)
        extraUpstream := upstreamByName.filter (fun predicate =>
          (predicateNamed predicate.name localByName).isNone)
        changed := localByName.filterMap (fun predicate =>
          match predicateNamed predicate.name upstreamByName with
          | some upstream =>
              if upstream ≠ predicate then some ⟨predicate.name, predicate, upstream⟩ else none
          | none => none)
        localOrigin := publisher.chain.predicateOrigin
        upstreamOrigin := receiver.chain.predicateOrigin }

def reportHops (prev : Option DerivedRulesResponse) : List DiffHop → List HopReport
  | [] => []
  | hop :: hops =>
      { index := hop.hopIndex
        expectedPubkey := hop.view.chain.localKey
        name := hop.name
        view := hop.view
        drift := prev.bind (fun prev => computeDiff prev hop.view) } ::
      reportHops (some hop.view) hops

def HopReport.drifted (hop : HopReport) : Bool :=
  hop.drift.any (fun diff => !diff.isInSync)

def diffReport (summary : ChainSummaryResponse DerivedRulesResponse) : Except String DiffReport :=
  if summary.hops.isEmpty then
    .error "daemon returned an empty chain summary; no hops to diff"
  else
    let hops := reportHops none summary.hops
    .ok ⟨hops, hops.any HopReport.drifted, summary.isPartial⟩

def diffExitCode (summary : ChainSummaryResponse DerivedRulesResponse) : Nat :=
  match diffReport summary with
  | .error _ => 1
  -- `partial` is printed but does not count, and the keys of the hops are never compared
  | .ok report => if report.driftDetected then 1 else 0

def DerivedRulesResponse.named (view : DerivedRulesResponse) (name : String) : Option Predicate :=
  view.predicates.reverse.find? (fun predicate => predicate.name = name)

def SameMap (publisher receiver : DerivedRulesResponse) : Prop :=
  ∀ name, publisher.named name = receiver.named name

theorem predicateNamed_byName (view : DerivedRulesResponse) (name : String) :
    predicateNamed name (byName view.predicates) = view.named name :=
  SortedMap.get?_collect name view.predicates

variable {view publisher receiver : DerivedRulesResponse}

theorem mem_byName {predicate : Predicate} :
    predicate ∈ byName view.predicates ↔ view.named predicate.name = some predicate := by
  rw [← predicateNamed_byName]
  exact SortedMap.mem_iff_get? (SortedMap.sorted_collect view.predicates)

theorem name_of_named {name : String} {predicate : Predicate}
    (h : view.named name = some predicate) : predicate.name = name := by
  simpa using List.find?_some h

theorem nothing_differs_iff (publisher receiver : DerivedRulesResponse) :
    (∀ predicate ∈ byName publisher.predicates,
        predicateNamed predicate.name (byName receiver.predicates) = some predicate) ∧
      (∀ predicate ∈ byName receiver.predicates,
        (predicateNamed predicate.name (byName publisher.predicates)).isSome) ↔
    SameMap publisher receiver := by
  simp only [predicateNamed_byName, mem_byName]
  constructor
  · rintro ⟨hlocal, hupstream⟩ name
    cases hfound : publisher.named name with
    | some predicate =>
        have hname := name_of_named hfound
        rw [← hname] at hfound ⊢
        exact (hlocal predicate hfound).symm
    | none =>
        cases hother : receiver.named name with
        | none => rfl
        | some predicate =>
            have hname := name_of_named hother
            rw [← hname] at hfound hother
            have hsome := hupstream predicate hother
            simp [hfound] at hsome
  · intro hsame
    refine ⟨fun predicate hpredicate => ?_, fun predicate hpredicate => ?_⟩
    · rw [← hsame]
      exact hpredicate
    · rw [hsame, hpredicate]
      rfl

theorem changed_nil_iff {localByName upstreamByName : List Predicate} :
    (localByName.filter (fun predicate =>
        (predicateNamed predicate.name upstreamByName).isNone) = [] ∧
      localByName.filterMap (fun predicate =>
        match predicateNamed predicate.name upstreamByName with
        | some upstream =>
            if upstream ≠ predicate then
              some (⟨predicate.name, predicate, upstream⟩ : PredicateChange)
            else none
        | none => none) = []) ↔
    ∀ predicate ∈ localByName, predicateNamed predicate.name upstreamByName = some predicate := by
  rw [List.filter_eq_nil_iff, List.filterMap_eq_nil_iff, ← forall₂_and]
  refine forall₂_congr fun predicate _ => ?_
  cases predicateNamed predicate.name upstreamByName with
  | none => simp
  | some upstream => simp

theorem isInSync_computeDiff {diff : PredicateDiff}
    (h : computeDiff publisher receiver = some diff) :
    diff.isInSync ↔ SameMap publisher receiver ∧
      publisher.chain.predicateOrigin = receiver.chain.predicateOrigin := by
  unfold computeDiff at h
  split at h
  · cases h
  · split at h
    · cases h
    · cases h
      have hextra : (byName receiver.predicates).filter (fun predicate =>
          (predicateNamed predicate.name (byName publisher.predicates)).isNone) = [] ↔
          ∀ predicate ∈ byName receiver.predicates,
            (predicateNamed predicate.name (byName publisher.predicates)).isSome := by
        simp [List.filter_eq_nil_iff, Option.isSome_iff_ne_none]
      simp only [PredicateDiff.isInSync, Bool.and_eq_true, List.isEmpty_iff, beq_iff_eq,
        ← nothing_differs_iff, ← changed_nil_iff, ← hextra]
      tauto

def NoDrift (publisher receiver : DerivedRulesResponse) : Prop :=
  (publisher.predicates = [] ∧ receiver.predicates = []) ∨ originsDiffer publisher receiver ∨
    (SameMap publisher receiver ∧
      publisher.chain.predicateOrigin = receiver.chain.predicateOrigin)

theorem any_computeDiff_iff (publisher receiver : DerivedRulesResponse) :
    (computeDiff publisher receiver).any (fun diff => !diff.isInSync) = false ↔
      NoDrift publisher receiver := by
  cases hdiff : computeDiff publisher receiver with
  | none =>
      have hpass : NoDrift publisher receiver := by
        unfold computeDiff at hdiff
        split at hdiff
        next hempty => exact .inl (by simpa using hempty)
        next =>
          split at hdiff
          next horigins => exact .inr (.inl horigins)
          next => cases hdiff
      simp [hpass]
  | some diff =>
      have hcompared : ¬ (publisher.predicates = [] ∧ receiver.predicates = []) ∧
          ¬ originsDiffer publisher receiver := by
        unfold computeDiff at hdiff
        constructor
        · intro hempty
          simp [hempty] at hdiff
        · intro horigins
          simp [horigins] at hdiff
      simp [NoDrift, hcompared, isInSync_computeDiff hdiff]

theorem any_drifted_iff (prev : DerivedRulesResponse) (hops : List DiffHop) :
    (reportHops (some prev) hops).any HopReport.drifted = false ↔
      List.IsChain NoDrift (prev :: hops.map ChainHop.view) := by
  induction hops generalizing prev with
  | nil => simp [reportHops]
  | cons hop hops ih =>
      simp only [reportHops, List.any_cons, Bool.or_eq_false_iff, ih, List.map_cons,
        List.isChain_cons_cons]
      exact and_congr_left fun _ => any_computeDiff_iff prev hop.view

theorem diffExitCode_eq_zero_iff (summary : ChainSummaryResponse DerivedRulesResponse) :
    diffExitCode summary = 0 ↔
      summary.hops ≠ [] ∧ List.IsChain NoDrift (summary.hops.map ChainHop.view) := by
  unfold diffExitCode diffReport
  cases hhops : summary.hops with
  | nil => simp
  | cons hop hops =>
      simp [reportHops, HopReport.drifted, ← any_drifted_iff]

def Linked (hops : List DiffHop) : Prop :=
  List.IsChain (fun before after => before.chain.upstream = some after.chain.localKey)
    (hops.map ChainHop.view)

/-- Adjacent hops with one origin hold the same predicates. -/
def SharesPredicates (hops : List DiffHop) : Prop :=
  List.IsChain (fun before after =>
    before.chain.predicateOrigin = after.chain.predicateOrigin → SameMap before after)
    (hops.map ChainHop.view)

/-- What an operator reads into exit code 0. -/
def Trustworthy (summary : ChainSummaryResponse DerivedRulesResponse) : Prop :=
  summary.isPartial = false ∧ Linked summary.hops ∧ SharesPredicates summary.hops

theorem sameMap_of_noDrift (h : NoDrift publisher receiver)
    (horigin : publisher.chain.predicateOrigin = receiver.chain.predicateOrigin) :
    SameMap publisher receiver := by
  rcases h with ⟨hlocal, hupstream⟩ | hdiffer | hsame
  · intro name
    simp [DerivedRulesResponse.named, hlocal, hupstream]
  · unfold originsDiffer at hdiffer
    rw [horigin] at hdiffer
    cases hrecv : receiver.chain.predicateOrigin with
    | none => simp [hrecv] at hdiffer
    | some key => simp [hrecv] at hdiffer
  · exact hsame.1

theorem noDrift_congr {publisher' receiver' : DerivedRulesResponse}
    (hpredicates : publisher.predicates = publisher'.predicates)
    (horigin : publisher.chain.predicateOrigin = publisher'.chain.predicateOrigin)
    (hpredicates' : receiver.predicates = receiver'.predicates)
    (horigin' : receiver.chain.predicateOrigin = receiver'.chain.predicateOrigin) :
    NoDrift publisher receiver → NoDrift publisher' receiver' := by
  simp only [NoDrift, SameMap, originsDiffer, DerivedRulesResponse.named, hpredicates, horigin,
    hpredicates', horigin']
  exact id

def compared (hop : DiffHop) : List Predicate × Option PubKey :=
  (hop.view.predicates, hop.view.chain.predicateOrigin)

theorem isChain_noDrift_congr {hops hops' : List DiffHop}
    (hsame : hops.map compared = hops'.map compared)
    (h : List.IsChain NoDrift (hops.map ChainHop.view)) :
    List.IsChain NoDrift (hops'.map ChainHop.view) := by
  induction hops generalizing hops' with
  | nil => simp_all
  | cons hop hops ih =>
      obtain ⟨hop', hops', rfl, hhop, hhops⟩ := List.map_eq_cons_iff.1 hsame.symm
      -- a comparison takes a hop and the next, so the rest is split once more
      cases hops with
      | nil => simp_all
      | cons next rest =>
          obtain ⟨next', rest', rfl, hnext, -⟩ := List.map_eq_cons_iff.1 hhops
          simp only [compared, Prod.mk.injEq] at hhop hnext
          simp only [List.map_cons, List.isChain_cons_cons] at h ⊢
          exact ⟨noDrift_congr hhop.1.symm hhop.2.symm hnext.1.symm hnext.2.symm h.1,
            ih hhops.symm h.2⟩

/--
Exit code 0 says that adjacent hops with one origin hold the same predicates.
It is worth what an operator reads into it exactly when, in addition, the walk
was complete and the keys link up, and it is the same for every summary that
differs in these only.
-/
theorem no_drift_trustworthy_iff (summary : ChainSummaryResponse DerivedRulesResponse)
    (hexit : diffExitCode summary = 0) :
    (Trustworthy summary ↔ summary.isPartial = false ∧ Linked summary.hops) ∧
      ∀ other : ChainSummaryResponse DerivedRulesResponse,
        other.hops.map compared = summary.hops.map compared → diffExitCode other = 0 := by
  obtain ⟨hne, hchain⟩ := (diffExitCode_eq_zero_iff summary).1 hexit
  have hshares : SharesPredicates summary.hops :=
    hchain.imp fun _ _ hpass => sameMap_of_noDrift hpass
  constructor
  · exact ⟨fun h => ⟨h.1, h.2.1⟩, fun h => ⟨h.1, h.2, hshares⟩⟩
  · intro other hother
    refine (diffExitCode_eq_zero_iff other).2 ⟨?_, isChain_noDrift_congr hother.symm hchain⟩
    intro hnil
    rw [hnil, List.map_nil, eq_comm, List.map_eq_nil_iff] at hother
    exact hne hother

def webPredicate : Predicate := ⟨"web", 443, .tcp, none, false⟩

def diffView (localKey : PubKey) (upstream : Option PubKey) : DerivedRulesResponse :=
  ⟨[webPredicate], [], ⟨localKey, upstream, none, some placeholderKey, none⟩⟩

def otherKey : PubKey := .x25519 ⟨List.replicate 32 (.ofNat 7), List.length_replicate⟩

def diffSummary (gatewayKey : PubKey) (isPartial : Bool) :
    ChainSummaryResponse DerivedRulesResponse :=
  ⟨[⟨0, .terminal, 0, none, diffView placeholderKey (some otherKey), none⟩,
    ⟨1, .gateway, 0, none, diffView gatewayKey none, none⟩], isPartial⟩

theorem no_drift_trustworthy_two_hops :
    diffExitCode (diffSummary otherKey false) = 0 ∧ Trustworthy (diffSummary otherKey false) := by
  refine ⟨by decide, ((no_drift_trustworthy_iff (diffSummary otherKey false) (by decide)).1).2 ?_⟩
  exact ⟨rfl, .cons_cons rfl (.singleton _)⟩

/--
The daemon's upstream query fails and the summary ends at the local node, and a
gateway answers with another key than the terminal dials: both exit with 0.
-/
theorem no_drift_although_cut_short_or_unlinked :
    (∃ summary, dispatchChainSummary none (some (fun _ _ => .error .timeout))
        (⟨.terminal, some ⟨diffView placeholderKey (some otherKey), placeholderKey⟩, 0, "node",
          .empty, ⟨∅, []⟩⟩ : WalkState DerivedRulesResponse) = .ok summary ∧
      diffExitCode summary = 0 ∧ summary.isPartial = true ∧ ¬ Trustworthy summary) ∧
    diffExitCode (diffSummary placeholderKey false) = 0 ∧
      ¬ Linked (diffSummary placeholderKey false).hops := by
  refine ⟨⟨_, rfl, by decide, rfl, fun h => absurd h.1 (by decide)⟩, by decide, fun h => ?_⟩
  cases h with
  | cons_cons hlink _ => exact absurd hlink (by decide)

end Yggdrasil.Control
