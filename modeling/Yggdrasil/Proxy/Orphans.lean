import Yggdrasil.Proxy.HttpsReconcile

/-!
# Hosts that outlive their route

A running frontend is cleaned up after whichever way the next set takes.  What
a failed spawn leaves in the certificate store, in the watcher or among the
plaintext routes is not: nothing runs, so the next call finds nothing to tear
down.
-/

namespace Yggdrasil.Proxy.HttpsSide

open Foundation Ratatoskr

def Stores (side : HttpsSide) (host : String) : Prop :=
  side.certStore.Mentions host ∨ host ∈ side.certWatcher

def OffersPlaintext (side : HttpsSide) (host : String) : Prop :=
  ∃ ip listener, side.redirectListeners.lookup ip = some listener ∧
    host ∈ listener.plaintextRoutes

def Redirects (side : HttpsSide) (host : String) : Prop :=
  ∃ ip listener, side.redirectListeners.lookup ip = some listener ∧ host ∈ listener.hosts

structure Confined (side : HttpsSide) (hosts : List String) : Prop where
  stores : ∀ host, side.Stores host → host ∈ hosts
  plaintext : ∀ host, side.OffersPlaintext host → host ∈ hosts
  redirects : ∀ host, side.Redirects host → host ∈ hosts

/-- No host is known anywhere that is not the host of a current route. -/
def OrphanFree (side : HttpsSide) : Prop := side.Confined (hostsOf side.currentRoutes)

variable {cfg : CertConfig} {env : HttpsSurroundings} {side next : HttpsSide}
  {desired : List HttpRoute} {host : String}

theorem teardown_of_idle (h : side.active = none) : side.teardown = side := by
  rw [teardown, h]

variable {handle : HttpsHandle} {store : CertStore}

theorem stores_teardown (hactive : side.active = some handle) :
    side.teardown.Stores host ↔ side.Stores host ∧ host ∉ hostsOf side.prevRoutes := by
  have hlower := map_toAsciiLowercase_of_subset (List.Subset.refl (hostsOf side.prevRoutes))
  rw [teardown, hactive]
  simp only [Stores, mentions_foldl_remove, mem_foldl_unregister, hlower]
  tauto

theorem offersPlaintext_teardown (h : Registered cfg side)
    (hactive : side.active = some handle) : ¬side.teardown.OffersPlaintext host := by
  rintro ⟨ip, listener, hlookup, hhost⟩
  have hip := (h.handle handle hactive).1
  rw [teardown, hactive] at hlookup
  rcases of_lookup_unregisterHandle hlookup with ⟨old, hold, -, rfl⟩ | ⟨hne, hother⟩
  · have hgone := tended_unregisterHosts (h.listeners _ old hold).2 (lower_redirectHosts h hactive)
    obtain ⟨entry, hentry⟩ := mem_iff_lookup.1 hhost
    rw [lookup_unregisterPlaintextRoutes hgone host] at hentry
    cases hentry
  · exact hne ((h.listeners ip listener hother).1.trans hip.symm)

theorem mentions_loadRoutes (cfg : CertConfig) (files : CertFiles) (store : CertStore)
    (hhost : host ∉ hostsOf desired) :
    (loadRoutes cfg files desired store).1.Mentions host ↔ store.Mentions host :=
  mentions_load_of_notMem hhost

theorem notMem_map_lower {hosts : List String} (hsub : hosts ⊆ hostsOf desired)
    (hhost : host ∉ hostsOf desired) : host ∉ hosts.map toAsciiLowercase := by
  rw [map_toAsciiLowercase_of_subset hsub]
  exact fun hmem => hhost (hsub hmem)

theorem mem_registerLoaded {hosts : List String} {watcher : CertWatcher}
    (hsub : hosts ⊆ hostsOf desired) (hhost : host ∉ hostsOf desired) :
    host ∈ registerLoaded store hosts watcher ↔ host ∈ watcher :=
  mem_foldl_register_of_notMem (notMem_map_lower hsub hhost)

theorem stores_respawn (hhost : host ∉ hostsOf desired)
    (hrespawn : Respawn cfg env side desired next) :
    next.Stores host ↔ side.teardown.Stores host := by
  have hkept : ∀ {store outcome},
      loadRoutes cfg env.files desired side.teardown.certStore = (store, outcome) →
      (store.Mentions host ↔ side.teardown.certStore.Mentions host) := by
    intro store outcome hload
    have hmentions := mentions_loadRoutes cfg env.files side.teardown.certStore hhost
    rwa [hload] at hmentions
  cases hrespawn with
  | loadFailed hload => simp only [Stores, hkept hload]
  | companionFailed hload =>
      simp only [Stores, hkept hload, mem_registerLoaded loadedHosts_subset hhost]
  | frontendFailed hload =>
      simp only [Stores, mentions_foldl_remove, mem_foldl_unregister, hkept hload,
        mem_registerLoaded loadedHosts_subset hhost, notMem_map_lower loadedHosts_subset hhost,
        not_false_eq_true, and_true]
  | spawned hload =>
      simp only [Stores, hkept hload, mem_registerLoaded loadedHosts_subset hhost]

theorem offersPlaintext_respawn (h : Registered cfg side) (hnodup : (hostsOf desired).Nodup)
    (hrespawn : Respawn cfg env side desired next) (hoffers : next.OffersPlaintext host) :
    host ∈ hostsOf desired ∨ (side.teardown.OffersPlaintext host ∧
      ∃ e, (loadRoutes cfg env.files desired side.teardown.certStore).2 = .error e) := by
  have hdown := registered_teardown h
  have hclaim : ∀ certLess listener, side.teardown.companion cfg env = some listener →
      host ∈ (claimListener listener (loadedHosts certLess desired)
        (certLessRoutes certLess desired)).plaintextRoutes → host ∈ hostsOf desired := by
    intro certLess listener hcompanion hhost
    refine hostsOf_certLessRoutes_subset (mem_plaintext_claimListener
      (tended_companion hdown side.active_teardown hcompanion) ?_ (nodup_loadedHosts hnodup) hhost)
    exact fun host hhost => lower_of_mem_hostsOf (loadedHosts_subset hhost)
  cases hrespawn with
  | loadFailed hload => exact .inr ⟨hoffers, _, congrArg Prod.snd hload⟩
  | companionFailed hload hcompanion =>
      obtain ⟨ip, listener, hlookup, -⟩ := hoffers
      have hlookup : side.teardown.redirectListeners.lookup ip = some listener := hlookup
      rw [(hdown.listeners ip listener hlookup).1] at hlookup
      simp [companion, hlookup] at hcompanion
  | @frontendFailed store certLess listener hload hcompanion =>
      obtain ⟨ip, other, hlookup, hhost⟩ := hoffers
      obtain ⟨-, rfl⟩ := lookup_insert_companion hdown hlookup
      rw [foldl_unregisterHost] at hhost
      exact .inl (hclaim certLess listener hcompanion hhost)
  | @spawned store certLess listener h3 hload hcompanion hh3 =>
      obtain ⟨ip, other, hlookup, hhost⟩ := hoffers
      obtain ⟨-, rfl⟩ := lookup_insert_companion hdown hlookup
      exact .inl (hclaim certLess listener hcompanion hhost)

theorem mentions_loadAdded (cfg : CertConfig) (files : CertFiles) (side : HttpsSide)
    (hhost : host ∉ hostsOf desired) :
    (side.loadAdded cfg files desired).1.Mentions host ↔ side.certStore.Mentions host := by
  unfold loadAdded
  split
  · rfl
  · exact mentions_loadRoutes cfg files side.certStore
      (fun hmem => hhost (hostsOf_filter_subset _ hmem))

theorem mentions_swappedStore :
    (side.swappedStore store desired).Mentions host ↔
      store.Mentions host ∧ host ∉ side.removedHosts desired := by
  rw [swappedStore, mentions_foldl_remove, map_toAsciiLowercase_of_subset removedHosts_subset]

theorem mem_swappedWatcher (hhost : host ∉ hostsOf desired) :
    host ∈ side.swappedWatcher store desired ↔
      host ∈ side.certWatcher ∧ host ∉ side.removedHosts desired := by
  rw [swappedWatcher, swappedHosts, mem_registerLoaded loadedHosts_subset hhost, mem_foldl_unregister,
    map_toAsciiLowercase_of_subset removedHosts_subset]

theorem stores_swap {files : CertFiles} {result : HttpsSide × Except HttpsError Unit}
    (hhost : host ∉ hostsOf desired) (hswap : Swap cfg files side handle desired result)
    (hstores : result.1.Stores host) :
    side.Stores host ∧ (result.2 = .ok () → host ∉ side.removedHosts desired) := by
  have hkept : ∀ {store outcome}, side.loadAdded cfg files desired = (store, outcome) →
      (store.Mentions host ↔ side.certStore.Mentions host) := by
    intro store outcome hload
    have hmentions := mentions_loadAdded cfg files side hhost
    rwa [hload] at hmentions
  cases hswap with
  | loadFailed hload =>
      simp only [Stores, hkept hload] at hstores
      exact ⟨hstores, by simp⟩
  | listenerMissing hload =>
      simp only [Stores, mentions_swappedStore, mem_swappedWatcher hhost, hkept hload] at hstores
      exact ⟨hstores.imp And.left And.left, by simp⟩
  | swapped hload =>
      simp only [Stores, mentions_swappedStore, mem_swappedWatcher hhost, hkept hload] at hstores
      exact ⟨hstores.imp And.left And.left, fun _ => hstores.elim And.right And.right⟩

theorem offersPlaintext_swap (h : Registered cfg side) {files : CertFiles}
    (hactive : side.active = some handle)
    (hswap : Swap cfg files side handle desired (next, .ok ()))
    (hoffers : next.OffersPlaintext host) : host ∈ hostsOf desired := by
  cases hswap with
  | @swapped store certLess old hload hold =>
      obtain ⟨ip, listener, hlookup, hhost⟩ := hoffers
      rw [(h.handle handle hactive).1] at hlookup
      obtain ⟨-, rfl⟩ := lookup_insert_companion h hlookup
      have htended := (h.listeners _ old hold).2
      rw [claimedHosts_of_active hactive] at htended
      refine hostsOf_certLessRoutes_subset (mem_plaintext_reset
        (tended_swapHosts htended (lower_redirectHosts h hactive) ?_) hhost)
      exact fun host hhost => lower_of_mem_hostsOf (loadedHosts_subset hhost)

theorem prevRoutes_reconcile (hreconcile : Reconcile cfg env side desired next)
    (hactive : next.active ≠ none) : next.prevRoutes = desired := by
  have hdown := side.active_teardown
  have hrespawned : ∀ {side next}, Respawn cfg env side desired next → next.active ≠ none →
      next.prevRoutes = desired := by
    intro side next hrespawn hactive
    cases hrespawn with
    | loadFailed => exact absurd side.active_teardown hactive
    | companionFailed => exact absurd side.active_teardown hactive
    | frontendFailed => exact absurd side.active_teardown hactive
    | spawned => rfl
  cases hreconcile with
  | emptied => exact absurd hdown hactive
  | spawned _ _ hrespawn => exact hrespawned hrespawn hactive
  | unchanged _ _ hsame => exact hsame.symm
  | swapped _ _ hswap =>
      cases hswap with
      | swapped => rfl
  | respawned _ _ _ hrespawn => exact hrespawned hrespawn hactive

theorem redirects_registered (h : Registered cfg side) (hredirects : side.Redirects host) :
    side.active ≠ none ∧ host ∈ hostsOf side.prevRoutes := by
  obtain ⟨ip, listener, hlookup, hhost⟩ := hredirects
  have hclaimed := (mem_of_exactly (h.listeners ip listener hlookup).2.redirects).1 hhost
  cases hactive : side.active with
  | none => simp [claimedHosts, hactive] at hclaimed
  | some handle =>
      rw [claimedHosts_of_active hactive] at hclaimed
      exact ⟨by simp, (h.handle handle hactive).2 hclaimed⟩

theorem redirects_reconcile (h : Registered cfg side) (hnodup : (hostsOf desired).Nodup)
    (hreconcile : Reconcile cfg env side desired next) (hredirects : next.Redirects host) :
    host ∈ hostsOf desired := by
  obtain ⟨hactive, hhost⟩ :=
    redirects_registered (registered_reconcile h hnodup hreconcile) hredirects
  rwa [prevRoutes_reconcile hreconcile hactive] at hhost

theorem confined_reconcile_of_running (h : Registered cfg side) (hnodup : (hostsOf desired).Nodup)
    (hactive : side.active = some handle) (hconfined : side.Confined (hostsOf side.prevRoutes))
    (hreconcile : Reconcile cfg env side desired next) : next.Confined (hostsOf desired) := by
  refine ⟨?_, ?_, fun host => redirects_reconcile h hnodup hreconcile⟩
  · intro host hstores
    by_contra hhost
    cases hreconcile with
    | emptied =>
        obtain ⟨hstores, hgone⟩ := (stores_teardown hactive).1 hstores
        exact hgone (hconfined.stores host hstores)
    | spawned _ hidle =>
        cases hidle.symm.trans hactive
    | unchanged _ _ hsame => exact hhost (hsame ▸ hconfined.stores host hstores)
    | swapped _ _ hswap =>
        obtain ⟨hstores, hkept⟩ := stores_swap hhost hswap hstores
        exact hkept rfl (mem_difference.2 ⟨hconfined.stores host hstores, hhost⟩)
    | @respawned handle failed next e hdesired hactive hswap hrespawn =>
        obtain ⟨hrunning, hprev⟩ := swap_failed hswap
        rw [stores_respawn hhost hrespawn, stores_teardown (hrunning.trans hactive),
          hprev] at hstores
        exact hstores.2 (hconfined.stores host (stores_swap hhost hswap hstores.1).1)
  · intro host hoffers
    cases hreconcile with
    | emptied => exact absurd hoffers (offersPlaintext_teardown h hactive)
    | spawned _ hidle =>
        cases hidle.symm.trans hactive
    | unchanged _ _ hsame => exact hsame ▸ hconfined.plaintext host hoffers
    | swapped _ hactive hswap => exact offersPlaintext_swap h hactive hswap hoffers
    | @respawned handle failed next e hdesired hactive hswap hrespawn =>
        have hregistered : Registered cfg failed := registered_swap h hactive hswap
        have hrunning := (swap_failed hswap).1.trans hactive
        rcases offersPlaintext_respawn hregistered hnodup hrespawn hoffers with hhost | ⟨hold, -⟩
        · exact hhost
        · exact absurd hold (offersPlaintext_teardown hregistered hrunning)

theorem confined_reconcile_of_idle (h : Registered cfg side) (hnodup : (hostsOf desired).Nodup)
    (hidle : side.active = none) (hreconcile : Reconcile cfg env side desired next) :
    next.Confined (hostsOf desired) ↔
      (∀ host, side.Stores host → host ∈ hostsOf desired) ∧
      (desired = [] ∨ (∃ e, (loadRoutes cfg env.files desired side.certStore).2 = .error e) →
        ∀ host, side.OffersPlaintext host → host ∈ hostsOf desired) := by
  have hsame := teardown_of_idle hidle
  have hredirects : ∀ host, next.Redirects host → host ∈ hostsOf desired :=
    fun host => redirects_reconcile h hnodup hreconcile
  cases hreconcile with
  | emptied hdesired =>
      rw [hsame] at hredirects ⊢
      constructor
      · intro hconfined
        exact ⟨hconfined.stores, fun _ => hconfined.plaintext⟩
      · rintro ⟨hstores, hplain⟩
        exact ⟨hstores, hplain (.inl hdesired), hredirects⟩
  | spawned hdesired _ hrespawn =>
      constructor
      · intro hconfined
        refine ⟨?_, ?_⟩
        · intro host hstores
          by_contra hhost
          rw [← hsame, ← stores_respawn hhost hrespawn] at hstores
          exact hhost (hconfined.stores host hstores)
        · rintro (hnil | ⟨e, herror⟩)
          · exact absurd hnil hdesired
          · intro host hoffers
            rw [← hsame] at herror hoffers
            cases hrespawn with
            | loadFailed => exact hconfined.plaintext host hoffers
            | companionFailed hload => simp [hload] at herror
            | frontendFailed hload => simp [hload] at herror
            | spawned hload => simp [hload] at herror
      · rintro ⟨hstores, hplain⟩
        refine ⟨?_, ?_, hredirects⟩
        · intro host hnext
          by_contra hhost
          rw [stores_respawn hhost hrespawn, hsame] at hnext
          exact hhost (hstores host hnext)
        · intro host hoffers
          rcases offersPlaintext_respawn h hnodup hrespawn hoffers with hhost | ⟨hold, herror⟩
          · exact hhost
          · rw [hsame] at hold herror
            exact hplain (.inr herror) host hold
  | unchanged _ hactive =>
      cases hidle.symm.trans hactive
  | swapped _ hactive =>
      cases hidle.symm.trans hactive
  | respawned _ hactive =>
      cases hidle.symm.trans hactive

theorem exists_collectIdle {listeners : AList (fun _ : IpAddr => RedirectListener)}
    {P : RedirectListener → Prop} (hbusy : ∀ listener, P listener → listener.isEmpty = false) :
    (∃ ip listener, (collectIdle listeners).lookup ip = some listener ∧ P listener) ↔
      ∃ ip listener, listeners.lookup ip = some listener ∧ P listener := by
  constructor
  · rintro ⟨ip, listener, hlookup, hP⟩
    exact ⟨ip, listener, of_lookup_collectIdle hlookup, hP⟩
  · rintro ⟨ip, listener, hlookup, hP⟩
    exact ⟨ip, listener, lookup_collectIdle_of_busy hlookup (hbusy listener hP), hP⟩

theorem orphanFree_applySet (set : RouteSet) :
    (side.applySet cfg env set).OrphanFree ↔
      (side.reconcileHttps cfg env set.routes).Confined (hostsOf set.routes) := by
  have hplain : ∀ host, (side.applySet cfg env set).OffersPlaintext host ↔
      (side.reconcileHttps cfg env set.routes).OffersPlaintext host :=
    fun host => exists_collectIdle fun _ hhost => not_isEmpty_of_mem (.inr hhost)
  have hredirects : ∀ host, (side.applySet cfg env set).Redirects host ↔
      (side.reconcileHttps cfg env set.routes).Redirects host :=
    fun host => exists_collectIdle fun _ hhost => not_isEmpty_of_mem (.inl hhost)
  constructor
  · intro h
    exact ⟨h.stores, fun host hhost => h.plaintext host ((hplain host).2 hhost),
      fun host hhost => h.redirects host ((hredirects host).2 hhost)⟩
  · intro h
    exact ⟨h.stores, fun host hhost => h.plaintext host ((hplain host).1 hhost),
      fun host hhost => h.redirects host ((hredirects host).1 hhost)⟩

/-! ## Whole runs -/

/--
A set that is applied while no frontend runs speaks of every host that the last
failed spawn left in the store or the watcher; and, where it is empty or does
not load, of every plaintext route that spawn left.
-/
def Tidy (cfg : CertConfig) (side : HttpsSide) : HttpsEvent → Prop
  | .applySet env set => side.active = none →
      (∀ host, side.Stores host → host ∈ hostsOf set.routes) ∧
      (set.routes = [] ∨
        (∃ e, (loadRoutes cfg env.files set.routes side.certStore).2 = .error e) →
          ∀ host, side.OffersPlaintext host → host ∈ hostsOf set.routes)
  | .reloadHost _ _ => True

/-- The running frontend serves the current routes, and nothing is orphaned. -/
structure Settled (cfg : CertConfig) (side : HttpsSide) : Prop where
  registered : Registered cfg side
  prevRoutes : side.active ≠ none → side.prevRoutes = side.currentRoutes
  orphanFree : side.OrphanFree

theorem confined_start : start.Confined [] := by
  refine ⟨?_, ?_, ?_⟩
  · rintro host ((hentry | hspec) | hwatched)
    · exact absurd hentry (AList.notMem_empty host)
    · exact absurd hspec (AList.notMem_empty host)
    · exact absurd hwatched (AList.notMem_empty host)
  · rintro host ⟨ip, listener, hlookup, -⟩
    cases hlookup
  · rintro host ⟨ip, listener, hlookup, -⟩
    cases hlookup

theorem settled_start : Settled cfg start where
  registered := registered_start
  prevRoutes := fun h => absurd rfl h
  orphanFree := confined_start

theorem orphanFree_applySet_iff (h : Settled cfg side) (set : RouteSet) :
    (side.applySet cfg env set).OrphanFree ↔ Tidy cfg side (.applySet env set) := by
  have hreconcile := reconcile_reconcileHttps cfg env side set.routes
  rw [orphanFree_applySet]
  cases hactive : side.active with
  | none =>
      rw [confined_reconcile_of_idle h.registered set.hosts_nodup hactive hreconcile]
      simp only [Tidy, hactive, true_imp_iff]
  | some handle =>
      have hconfined : side.Confined (hostsOf side.prevRoutes) := by
        rw [h.prevRoutes (by simp [hactive])]
        exact h.orphanFree
      simp only [Tidy, hactive, reduceCtorEq, false_imp_iff, iff_true]
      exact confined_reconcile_of_running h.registered set.hosts_nodup hactive hconfined hreconcile

theorem settled_step {event : HttpsEvent} (h : Settled cfg side) (htidy : Tidy cfg side event)
    (hstep : side.step cfg event = some next) : Settled cfg next := by
  refine ⟨registered_step h.registered hstep, ?_, ?_⟩
  · cases event with
    | applySet env set =>
        cases hstep
        have hprev := prevRoutes_reconcile (reconcile_reconcileHttps cfg env side set.routes)
        exact hprev
    | reloadHost files hostname =>
        cases hstep
        exact h.prevRoutes
  · cases event with
    | applySet env set =>
        cases hstep
        exact (orphanFree_applySet_iff h set).2 htidy
    | reloadHost files hostname =>
        cases hstep
        refine ⟨?_, h.orphanFree.plaintext, h.orphanFree.redirects⟩
        rintro host (hmentions | hwatched)
        · exact h.orphanFree.stores host (.inl (mentions_reloadHost hmentions))
        · exact h.orphanFree.stores host (.inr hwatched)

/--
Along a run of applied sets and certificate reloads, no state has an orphaned
host exactly when every step is tidy.
-/
theorem orphanFree_throughout_iff (cfg : CertConfig) (events : List HttpsEvent) :
    (∀ before side, before <+: events → run (step cfg) start before = some side →
      side.OrphanFree) ↔ Along (step cfg) (Tidy cfg) start events := by
  refine reached_iff_along (step cfg) (I := Settled cfg) ?_ ?_ ?_ settled_start events
  · exact fun side event next h htidy hstep => settled_step h htidy hstep
  · exact fun side h => h.orphanFree
  · intro side event h hall
    cases event with
    | applySet env set => exact (orphanFree_applySet_iff h set).1 (hall _ rfl)
    | reloadHost files hostname => trivial

/-- The spawn fails at the second route; the first one's certificate outlives the set. -/
theorem orphan_after_malformed_certificate :
    ∃ side, run (step toyCertConfig) start
        [.applySet (toySurroundings true ["b.test"]) twoRoutes,
          .applySet (toySurroundings true []) noRoutes] = some side ∧
      side.certStore.lookup "a.test" = some [1] ∧ ¬side.OrphanFree := by
  refine ⟨_, rfl, by decide, fun h => ?_⟩
  have hmem : "a.test" ∈ hostsOf noRoutes.routes := h.stores "a.test" (.inl (.inl (by decide)))
  exact absurd hmem (by decide)

def shrinkingSets : List HttpsEvent :=
  [.applySet (toySurroundings true []) twoRoutes, .applySet (toySurroundings true []) oneRoute,
    .applySet (toySurroundings true []) noRoutes]

theorem orphanFree_throughout_shrinking :
    ∃ side, run (step toyCertConfig) start shrinkingSets = some side ∧ side.OrphanFree := by
  have htidy : Along (step toyCertConfig) (Tidy toyCertConfig) start shrinkingSets := by
    refine along_cons _ ?_ rfl (along_cons _ ?_ rfl (along_cons _ ?_ rfl trivial))
    · intro _
      refine ⟨fun host hstores => ?_, fun _ host hoffers => ?_⟩
      · cases confined_start.stores host hstores
      · cases confined_start.plaintext host hoffers
    · intro hidle
      cases hidle
    · intro hidle
      cases hidle
  obtain ⟨side, hrun⟩ : ∃ side, run (step toyCertConfig) start shrinkingSets = some side :=
    ⟨_, rfl⟩
  exact ⟨side, hrun, (orphanFree_throughout_iff toyCertConfig shrinkingSets).2 htidy _ _
    (List.prefix_refl _) hrun⟩

end Yggdrasil.Proxy.HttpsSide
