import Yggdrasil.Proxy.Https

/-!
# What the reconcile keeps in step

Each path of the reconcile is summed up by a relation with one case for each of
its exits; the invariants are proved over these cases.  There is at most one
companion listener, it holds one claim for each host of the running frontend,
and it is not collected as idle while that frontend runs.
-/

namespace Yggdrasil.Proxy

open Foundation Ratatoskr

section

variable {routes : List HttpRoute} {certLess : List String}

theorem mem_difference {hosts others : List String} {host : String} :
    host ∈ difference hosts others ↔ host ∈ hosts ∧ host ∉ others := by
  simp [difference]

theorem nodup_difference (hosts others : List String) : (difference hosts others).Nodup :=
  (List.nodup_dedup hosts).filter _

theorem lower_of_mem_hostsOf {host : String} (h : host ∈ hostsOf routes) :
    toAsciiLowercase host = host := by
  obtain ⟨route, -, rfl⟩ := List.mem_map.1 h
  exact toAsciiLowercase_key route

theorem hostsOf_filter_subset (keep : HttpRoute → Bool) :
    hostsOf (routes.filter keep) ⊆ hostsOf routes :=
  List.map_subset _ List.filter_sublist.subset

theorem nodup_hostsOf_filter (keep : HttpRoute → Bool) (h : (hostsOf routes).Nodup) :
    (hostsOf (routes.filter keep)).Nodup :=
  h.sublist (List.filter_sublist.map HttpRoute.key)

theorem loadedHosts_subset : loadedHosts certLess routes ⊆ hostsOf routes :=
  hostsOf_filter_subset _

theorem nodup_loadedHosts (h : (hostsOf routes).Nodup) : (loadedHosts certLess routes).Nodup :=
  nodup_hostsOf_filter _ h

theorem hostsOf_certLessRoutes_subset :
    hostsOf (certLessRoutes certLess routes) ⊆ hostsOf routes :=
  hostsOf_filter_subset _

theorem loaded_or_certLess {route : HttpRoute} (h : route ∈ routes) :
    route.key ∈ loadedHosts certLess routes ∨ route ∈ certLessRoutes certLess routes := by
  cases hless : isCertLess certLess route with
  | true => exact .inr (List.mem_filter.2 ⟨h, hless⟩)
  | false => exact .inl (List.mem_map_of_mem (List.mem_filter.2 ⟨h, by simp [hless]⟩))

end

section

variable {store : CertStore} {routes : List HttpRoute}

theorem contains_iff {hostname : String} :
    store.contains hostname = true ↔ toAsciiLowercase hostname ∈ store.entries := by
  rw [CertStore.contains, AList.lookup_isSome]

theorem mem_frontendTable {host : String} (h : host ∈ frontendTable store routes) :
    host ∈ store.entries := by
  obtain ⟨route, hroute, rfl⟩ := List.mem_map.1 (mem_build h)
  exact contains_iff.1 (List.mem_filter.1 hroute).2

theorem lookup_frontendTable (hnodup : (hostsOf routes).Nodup) {route : HttpRoute}
    (hroute : route ∈ routes) (hcert : store.contains route.hostname = true) :
    (frontendTable store routes).lookup route.key =
      some (RouteEntry.of httpsFrontendName route) := by
  exact lookup_fill_of_mem HttpRoute.key _ (nodup_hostsOf_filter _ hnodup)
    (List.mem_filter.2 ⟨hroute, hcert⟩)

end

/-- The listener guards its plaintext routes by the LAN ranges, holds them all for the HTTPS
frontend, and has one claim for each of the given hosts. -/
structure Tended (cfg : CertConfig) (hosts : List String) (listener : RedirectListener) : Prop where
  lan : listener.lanCidrs = some cfg.lanCidrs
  plaintext : AllFrom listener.plaintextRoutes httpsFrontendName
  redirects : listener.hosts.Exactly hosts

section

variable {cfg : CertConfig} {hosts : List String} {listener : RedirectListener}

theorem tended_spawn : Tended cfg [] (.spawn (some cfg.lanCidrs)) :=
  ⟨rfl, allFrom_empty, exactly_empty⟩

theorem tended_congr (h : Tended cfg hosts listener) {others : List String}
    (hsame : ∀ host, host ∈ hosts ↔ host ∈ others) : Tended cfg others listener :=
  ⟨h.lan, h.plaintext, exactly_congr h.redirects hsame⟩

theorem tended_unregisterHosts (h : Tended cfg hosts listener) {gone : List String}
    (hlower : ∀ host ∈ gone, toAsciiLowercase host = host) :
    Tended cfg (hosts.filter (fun host => host ∉ gone))
      (gone.foldl RedirectListener.unregisterHost listener) := by
  rw [foldl_unregisterHost]
  exact ⟨h.lan, h.plaintext, exactly_foldl_remove h.redirects hlower⟩

variable {new : List String}

theorem tended_registerHosts (h : Tended cfg hosts listener)
    (hlower : ∀ host ∈ new, toAsciiLowercase host = host) (hnodup : new.Nodup)
    (hfresh : ∀ host ∈ new, host ∉ hosts) :
    Tended cfg (new ++ hosts) (new.foldl RedirectListener.registerHost listener) := by
  rw [foldl_registerHost]
  exact ⟨h.lan, h.plaintext, exactly_foldl_add h.redirects hlower hnodup hfresh⟩

theorem lookup_unregisterPlaintextRoutes (h : Tended cfg hosts listener) (host : String) :
    (listener.unregisterPlaintextRoutes httpsFrontendName).plaintextRoutes.lookup host = none :=
  lookup_removeByRule h.plaintext host

theorem tended_unregisterPlaintextRoutes (h : Tended cfg hosts listener) :
    Tended cfg hosts (listener.unregisterPlaintextRoutes httpsFrontendName) where
  lan := h.lan
  plaintext := by
    intro host entry hentry
    rw [lookup_unregisterPlaintextRoutes h host] at hentry
    cases hentry
  redirects := h.redirects

theorem mem_plaintext_reset (h : Tended cfg hosts listener) {routes : List HttpRoute}
    {host : String} (hhost : host ∈ ((listener.unregisterPlaintextRoutes
      httpsFrontendName).registerPlaintextRoutes routes httpsFrontendName).plaintextRoutes) :
    host ∈ hostsOf routes := by
  rcases mem_extend hhost with hroutes | hold
  · exact hroutes
  · obtain ⟨entry, hentry⟩ := mem_iff_lookup.1 hold
    rw [lookup_unregisterPlaintextRoutes h host] at hentry
    cases hentry

theorem tended_registerPlaintextRoutes (h : Tended cfg hosts listener)
    (routes : List HttpRoute) :
    Tended cfg hosts (listener.registerPlaintextRoutes routes httpsFrontendName) :=
  ⟨h.lan, allFrom_extend h.plaintext, h.redirects⟩

theorem mem_plaintext_claimListener (h : Tended cfg [] listener)
    (hlower : ∀ host ∈ new, toAsciiLowercase host = host) (hnodup : new.Nodup)
    {certLess : List HttpRoute} {host : String}
    (hhost : host ∈ (HttpsSide.claimListener listener new certLess).plaintextRoutes) :
    host ∈ hostsOf certLess :=
  mem_plaintext_reset (tended_registerHosts h hlower hnodup (by simp)) hhost

theorem tended_claimListener (h : Tended cfg [] listener)
    (hlower : ∀ host ∈ new, toAsciiLowercase host = host) (hnodup : new.Nodup)
    (certLess : List HttpRoute) : Tended cfg new (HttpsSide.claimListener listener new certLess) := by
  have hnew := tended_registerHosts h hlower hnodup (by simp)
  refine tended_congr (tended_registerPlaintextRoutes
    (tended_unregisterPlaintextRoutes hnew) certLess) ?_
  simp

theorem tended_swapHosts {old : List String} (h : Tended cfg old listener)
    (hold : ∀ host ∈ old, toAsciiLowercase host = host)
    (hnew : ∀ host ∈ new, toAsciiLowercase host = host) :
    Tended cfg new ((difference new old).foldl RedirectListener.registerHost
      ((difference old new).foldl RedirectListener.unregisterHost listener)) := by
  have hgoneLower : ∀ host ∈ difference old new, toAsciiLowercase host = host :=
    fun host hhost => hold host (mem_difference.1 hhost).1
  have hnewLower : ∀ host ∈ difference new old, toAsciiLowercase host = host :=
    fun host hhost => hnew host (mem_difference.1 hhost).1
  refine tended_congr (tended_registerHosts (tended_unregisterHosts h hgoneLower) hnewLower
    (nodup_difference new old) ?_) ?_
  · intro host hhost hmem
    exact (mem_difference.1 hhost).2 (List.mem_filter.1 hmem).1
  · intro host
    simp only [List.mem_append, mem_difference, List.mem_filter, decide_eq_true_eq]
    tauto

theorem tended_swapListener {old : List String} (h : Tended cfg old listener)
    (hold : ∀ host ∈ old, toAsciiLowercase host = host)
    (hnew : ∀ host ∈ new, toAsciiLowercase host = host) (certLess : List HttpRoute) :
    Tended cfg new (HttpsSide.swapListener listener old new certLess) :=
  tended_registerPlaintextRoutes
    (tended_unregisterPlaintextRoutes (tended_swapHosts h hold hnew)) certLess

end

/-! ## What the paths can do -/

namespace HttpsSide

theorem of_lookup_unregisterHandle {listeners : AList (fun _ : IpAddr => RedirectListener)}
    {handle : HttpsHandle} {ip : IpAddr} {listener : RedirectListener}
    (h : (unregisterHandle listeners handle).lookup ip = some listener) :
    (∃ old, listeners.lookup handle.redirectIp = some old ∧ ip = handle.redirectIp ∧
      listener = (handle.redirectHosts.foldl RedirectListener.unregisterHost
        old).unregisterPlaintextRoutes httpsFrontendName) ∨
    (ip ≠ handle.redirectIp ∧ listeners.lookup ip = some listener) := by
  unfold unregisterHandle at h
  split at h
  · rename_i hnone
    refine .inr ⟨?_, h⟩
    rintro rfl
    rw [hnone] at h
    cases h
  · rename_i old hold
    by_cases hip : ip = handle.redirectIp
    · rw [hip, AList.lookup_insert] at h
      exact .inl ⟨old, hold, hip, (Option.some.inj h).symm⟩
    · rw [AList.lookup_insert_ne hip] at h
      exact .inr ⟨hip, h⟩

inductive Swap (cfg : CertConfig) (files : CertFiles) (side : HttpsSide) (handle : HttpsHandle)
    (desired : List HttpRoute) : HttpsSide × Except HttpsError Unit → Prop where
  | loadFailed {store : CertStore} {e : CertError}
      (hload : side.loadAdded cfg files desired = (store, .error e)) :
      Swap cfg files side handle desired
        ({ side with certStore := store }, .error (.certs e))
  | listenerMissing {store : CertStore} {certLess : List String}
      (hload : side.loadAdded cfg files desired = (store, .ok certLess))
      (hlistener : side.redirectListeners.lookup handle.redirectIp = none) :
      Swap cfg files side handle desired
        ({ side with
            certStore := side.swappedStore store desired
            certWatcher := side.swappedWatcher store desired },
          .error (.redirectListenerMissing handle.redirectIp))
  | swapped {store : CertStore} {certLess : List String} {listener : RedirectListener}
      (hload : side.loadAdded cfg files desired = (store, .ok certLess))
      (hlistener : side.redirectListeners.lookup handle.redirectIp = some listener) :
      Swap cfg files side handle desired
        ({ side with
            active := some (swappedHandle handle
              (frontendTable (side.swappedStore store desired) desired)
              (swappedHosts store desired))
            prevRoutes := desired
            redirectListeners := side.redirectListeners.insert handle.redirectIp
              (swapListener listener handle.redirectHosts (swappedHosts store desired)
                (certLessRoutes (certLessIn store desired) desired))
            certStore := side.swappedStore store desired
            certWatcher := side.swappedWatcher store desired }, .ok ())

theorem swap_tryHotSwapRoutes (cfg : CertConfig) (files : CertFiles) (side : HttpsSide)
    (handle : HttpsHandle) (desired : List HttpRoute) :
    Swap cfg files side handle desired (side.tryHotSwapRoutes cfg files handle desired) := by
  unfold tryHotSwapRoutes
  split
  · rename_i store e hload
    exact .loadFailed hload
  · rename_i store certLess hload
    simp only
    split
    · rename_i hlistener
      exact .listenerMissing hload hlistener
    · rename_i listener hlistener
      exact .swapped hload hlistener

theorem swap_failed {cfg : CertConfig} {files : CertFiles} {side failed : HttpsSide}
    {handle : HttpsHandle} {desired : List HttpRoute} {e : HttpsError}
    (h : Swap cfg files side handle desired (failed, .error e)) :
    failed.active = side.active ∧ failed.prevRoutes = side.prevRoutes := by
  cases h with
  | loadFailed => exact ⟨rfl, rfl⟩
  | listenerMissing => exact ⟨rfl, rfl⟩

inductive Respawn (cfg : CertConfig) (env : HttpsSurroundings) (side : HttpsSide)
    (desired : List HttpRoute) : HttpsSide → Prop where
  | loadFailed {store : CertStore} {e : CertError}
      (hload : loadRoutes cfg env.files desired side.teardown.certStore = (store, .error e)) :
      Respawn cfg env side desired { side.teardown with prevRoutes := [], certStore := store }
  | companionFailed {store : CertStore} {certLess : List String}
      (hload : loadRoutes cfg env.files desired side.teardown.certStore = (store, .ok certLess))
      (hcompanion : side.teardown.companion cfg env = none) :
      Respawn cfg env side desired
        { side.teardown with
          prevRoutes := []
          certStore := store
          certWatcher := registerLoaded store (loadedHosts certLess desired)
            side.teardown.certWatcher }
  | frontendFailed {store : CertStore} {certLess : List String} {listener : RedirectListener}
      (hload : loadRoutes cfg env.files desired side.teardown.certStore = (store, .ok certLess))
      (hcompanion : side.teardown.companion cfg env = some listener) :
      Respawn cfg env side desired
        { side.teardown with
          prevRoutes := []
          redirectListeners := side.teardown.redirectListeners.insert cfg.httpsListen.ip
            ((loadedHosts certLess desired).foldl RedirectListener.unregisterHost
              (claimListener listener (loadedHosts certLess desired)
                (certLessRoutes certLess desired)))
          certStore := (loadedHosts certLess desired).foldl CertStore.remove store
          certWatcher := (loadedHosts certLess desired).foldl CertWatcher.unregister
            (registerLoaded store (loadedHosts certLess desired) side.teardown.certWatcher) }
  | spawned {store : CertStore} {certLess : List String} {listener : RedirectListener}
      {h3 : Option RouteTable}
      (hload : loadRoutes cfg env.files desired side.teardown.certStore = (store, .ok certLess))
      (hcompanion : side.teardown.companion cfg env = some listener)
      (hh3 : h3 = none ∨ h3 = some (frontendTable store desired)) :
      Respawn cfg env side desired
        { side.teardown with
          active := some ⟨frontendTable store desired, h3, loadedHosts certLess desired,
            cfg.httpsListen.ip⟩
          prevRoutes := desired
          redirectListeners := side.teardown.redirectListeners.insert cfg.httpsListen.ip
            (claimListener listener (loadedHosts certLess desired)
              (certLessRoutes certLess desired))
          certStore := store
          certWatcher := registerLoaded store (loadedHosts certLess desired)
            side.teardown.certWatcher }

theorem spawnFrontend_ok {cfg : CertConfig} {env : HttpsSurroundings} {store : CertStore}
    {routes : List HttpRoute} {table : RouteTable}
    (h : spawnFrontend cfg env store routes = .ok table) : table = frontendTable store routes := by
  unfold spawnFrontend at h
  split_ifs at h
  exact (Except.ok.inj h).symm

theorem respawn_respawn (cfg : CertConfig) (env : HttpsSurroundings) (side : HttpsSide)
    (desired : List HttpRoute) :
    Respawn cfg env side desired (side.respawn cfg env desired) := by
  unfold respawn spawnHttpsFrontend
  cases hload : loadRoutes cfg env.files desired side.teardown.certStore with
  | mk store outcome =>
      cases outcome with
      | error e => exact .loadFailed hload
      | ok certLess =>
          simp only
          cases hcompanion : side.teardown.companion cfg env with
          | none => exact .companionFailed hload hcompanion
          | some listener =>
              simp only
              cases hfrontend : spawnFrontend cfg env store desired with
              | error e => exact .frontendFailed hload hcompanion
              | ok table =>
                  obtain rfl := spawnFrontend_ok hfrontend
                  refine .spawned hload hcompanion ?_
                  split
                  · exact .inr rfl
                  · exact .inl rfl

inductive Reconcile (cfg : CertConfig) (env : HttpsSurroundings) (side : HttpsSide)
    (desired : List HttpRoute) : HttpsSide → Prop where
  | emptied (hdesired : desired = []) :
      Reconcile cfg env side desired { side.teardown with prevRoutes := [] }
  | spawned {next : HttpsSide} (hdesired : desired ≠ []) (hidle : side.active = none)
      (hrespawn : Respawn cfg env side desired next) : Reconcile cfg env side desired next
  | unchanged {handle : HttpsHandle} (hdesired : desired ≠ []) (hactive : side.active = some handle)
      (hsame : desired = side.prevRoutes) : Reconcile cfg env side desired side
  | swapped {handle : HttpsHandle} {next : HttpsSide} (hdesired : desired ≠ [])
      (hactive : side.active = some handle)
      (hswap : Swap cfg env.files side handle desired (next, .ok ())) :
      Reconcile cfg env side desired next
  | respawned {handle : HttpsHandle} {failed next : HttpsSide} {e : HttpsError}
      (hdesired : desired ≠ []) (hactive : side.active = some handle)
      (hswap : Swap cfg env.files side handle desired (failed, .error e))
      (hrespawn : Respawn cfg env failed desired next) : Reconcile cfg env side desired next

theorem reconcile_reconcileHttps (cfg : CertConfig) (env : HttpsSurroundings) (side : HttpsSide)
    (desired : List HttpRoute) :
    Reconcile cfg env side desired (side.reconcileHttps cfg env desired) := by
  unfold reconcileHttps
  by_cases hdesired : desired = []
  · rw [if_pos hdesired]
    exact .emptied hdesired
  · rw [if_neg hdesired]
    cases hactive : side.active with
    | none => exact .spawned hdesired hactive (respawn_respawn cfg env side desired)
    | some handle =>
        simp only
        by_cases hsame : desired = side.prevRoutes
        · rw [if_pos hsame]
          exact .unchanged hdesired hactive hsame
        · rw [if_neg hsame]
          have hswap := swap_tryHotSwapRoutes cfg env.files side handle desired
          cases hresult : side.tryHotSwapRoutes cfg env.files handle desired with
          | mk next outcome =>
              rw [hresult] at hswap
              cases outcome with
              | ok value => exact .swapped hdesired hactive hswap
              | error e =>
                  exact .respawned hdesired hactive hswap (respawn_respawn cfg env next desired)

end HttpsSide

/-! ## Claims on the companion -/

namespace HttpsSide

def claimedHosts (side : HttpsSide) : List String :=
  (side.active.map HttpsHandle.redirectHosts).getD []

/-- There is at most the one companion listener, and it holds exactly the claims of the running
frontend. -/
structure Registered (cfg : CertConfig) (side : HttpsSide) : Prop where
  listeners : ∀ ip listener, side.redirectListeners.lookup ip = some listener →
    ip = cfg.httpsListen.ip ∧ Tended cfg side.claimedHosts listener
  handle : ∀ handle, side.active = some handle →
    handle.redirectIp = cfg.httpsListen.ip ∧ handle.redirectHosts ⊆ hostsOf side.prevRoutes

variable {cfg : CertConfig} {env : HttpsSurroundings} {side : HttpsSide}
  {desired : List HttpRoute}

theorem registered_start : Registered cfg start where
  listeners := by
    intro ip listener h
    cases h
  handle := by
    intro handle h
    cases h

variable {handle : HttpsHandle} {listener : RedirectListener} {ip : IpAddr} {next : HttpsSide}
  {listeners : AList (fun _ : IpAddr => RedirectListener)}

theorem claimedHosts_of_active (h : side.active = some handle) :
    side.claimedHosts = handle.redirectHosts := by
  rw [claimedHosts, h]
  rfl

theorem lookup_insert_companion (h : Registered cfg side) {new : RedirectListener}
    (hlookup : (side.redirectListeners.insert cfg.httpsListen.ip new).lookup ip = some listener) :
    ip = cfg.httpsListen.ip ∧ listener = new := by
  rcases of_lookup_insert hlookup with hnew | hold
  · exact hnew
  · have hip := (h.listeners ip listener hold).1
    rw [hip, AList.lookup_insert] at hlookup
    exact ⟨hip, (Option.some.inj hlookup).symm⟩

theorem tended_of_lookup_insert (h : Registered cfg side) {hosts : List String}
    {new : RedirectListener} (hnew : Tended cfg hosts new)
    (hlookup : (side.redirectListeners.insert cfg.httpsListen.ip new).lookup ip = some listener) :
    ip = cfg.httpsListen.ip ∧ Tended cfg hosts listener := by
  obtain ⟨hip, rfl⟩ := lookup_insert_companion h hlookup
  exact ⟨hip, hnew⟩

theorem lower_redirectHosts (h : Registered cfg side) (hactive : side.active = some handle) :
    ∀ host ∈ handle.redirectHosts, toAsciiLowercase host = host :=
  fun _ hhost => lower_of_mem_hostsOf ((h.handle handle hactive).2 hhost)

theorem registered_teardown (h : Registered cfg side) : Registered cfg side.teardown := by
  unfold teardown
  cases hactive : side.active with
  | none => exact h
  | some handle =>
      refine ⟨?_, by simp⟩
      intro ip listener hlookup
      have hip := (h.handle handle hactive).1
      rcases of_lookup_unregisterHandle hlookup with ⟨old, hold, rfl, rfl⟩ | ⟨hne, hother⟩
      · have htended := (h.listeners _ old hold).2
        rw [claimedHosts_of_active hactive] at htended
        have hgone := tended_unregisterHosts htended (lower_redirectHosts h hactive)
        refine ⟨hip, tended_congr (tended_unregisterPlaintextRoutes hgone) ?_⟩
        simp [claimedHosts]
      · exact absurd ((h.listeners ip listener hother).1.trans hip.symm) hne

theorem removedHosts_subset : side.removedHosts desired ⊆ hostsOf side.prevRoutes :=
  fun _ hhost => (mem_difference.1 hhost).1

theorem active_teardown (side : HttpsSide) : side.teardown.active = none := by
  unfold teardown
  cases hactive : side.active with
  | none => exact hactive
  | some handle => rfl

theorem registered_swap (h : Registered cfg side) (hactive : side.active = some handle)
    {files : CertFiles} {result : HttpsSide × Except HttpsError Unit}
    (hswap : Swap cfg files side handle desired result) : Registered cfg result.1 := by
  cases hswap with
  | loadFailed => exact ⟨h.listeners, h.handle⟩
  | listenerMissing => exact ⟨h.listeners, h.handle⟩
  | @swapped store certLess old hload hold =>
      have hip := (h.handle handle hactive).1
      have htended := (h.listeners _ old hold).2
      rw [claimedHosts_of_active hactive] at htended
      have hnew : ∀ host ∈ swappedHosts store desired, toAsciiLowercase host = host :=
        fun host hhost => lower_of_mem_hostsOf (loadedHosts_subset hhost)
      have hswapped := tended_swapListener htended (lower_redirectHosts h hactive) hnew
        (certLessRoutes (certLessIn store desired) desired)
      refine ⟨?_, ?_⟩
      · intro ip listener hlookup
        rw [hip] at hlookup
        exact tended_of_lookup_insert h hswapped hlookup
      · intro handle' hhandle
        cases hhandle
        exact ⟨hip, loadedHosts_subset⟩

theorem tended_companion (h : Registered cfg side) (hidle : side.active = none)
    (hcompanion : side.companion cfg env = some listener) : Tended cfg [] listener := by
  unfold companion at hcompanion
  split at hcompanion
  · rename_i old hold
    have htended := (h.listeners _ old hold).2
    rw [claimedHosts, hidle] at htended
    cases hcompanion
    exact htended
  · split at hcompanion
    · cases hcompanion
      exact tended_spawn
    · cases hcompanion

theorem registered_respawn (h : Registered cfg side) (hnodup : (hostsOf desired).Nodup)
    (hrespawn : Respawn cfg env side desired next) : Registered cfg next := by
  have hdown := registered_teardown h
  have hidle := side.active_teardown
  have hlower : ∀ certLess, ∀ host ∈ loadedHosts certLess desired, toAsciiLowercase host = host :=
    fun _ host hhost => lower_of_mem_hostsOf (loadedHosts_subset hhost)
  have hclaim : ∀ certLess listener, side.teardown.companion cfg env = some listener →
      Tended cfg (loadedHosts certLess desired) (claimListener listener
        (loadedHosts certLess desired) (certLessRoutes certLess desired)) :=
    fun certLess listener hcompanion => tended_claimListener
      (tended_companion hdown hidle hcompanion) (hlower certLess) (nodup_loadedHosts hnodup) _
  cases hrespawn with
  | loadFailed => exact ⟨hdown.listeners, by simp [hidle]⟩
  | companionFailed => exact ⟨hdown.listeners, by simp [hidle]⟩
  | @frontendFailed store certLess listener hload hcompanion =>
      refine ⟨?_, by simp [hidle]⟩
      intro ip other hlookup
      refine tended_of_lookup_insert hdown ?_ hlookup
      refine tended_congr (tended_unregisterHosts (hclaim certLess listener hcompanion)
        (hlower certLess)) ?_
      simp [claimedHosts, hidle]
  | @spawned store certLess listener h3 hload hcompanion hh3 =>
      refine ⟨?_, ?_⟩
      · intro ip other hlookup
        exact tended_of_lookup_insert hdown (hclaim certLess listener hcompanion) hlookup
      · intro handle hhandle
        cases hhandle
        exact ⟨rfl, loadedHosts_subset⟩

theorem registered_reconcile (h : Registered cfg side) (hnodup : (hostsOf desired).Nodup)
    (hreconcile : Reconcile cfg env side desired next) : Registered cfg next := by
  cases hreconcile with
  | emptied hdesired =>
      exact ⟨(registered_teardown h).listeners, by simp [active_teardown]⟩
  | spawned hdesired hidle hrespawn => exact registered_respawn h hnodup hrespawn
  | unchanged => exact h
  | swapped hdesired hactive hswap => exact registered_swap h hactive hswap
  | respawned hdesired hactive hswap hrespawn =>
      exact registered_respawn (registered_swap h hactive hswap) hnodup hrespawn

theorem of_lookup_collectIdle
    (h : (collectIdle listeners).lookup ip = some listener) : listeners.lookup ip = some listener := by
  rw [collectIdle, lookup_eraseAll] at h
  split at h
  · cases h
  · exact h

theorem lookup_collectIdle_of_busy (h : listeners.lookup ip = some listener)
    (hbusy : listener.isEmpty = false) : (collectIdle listeners).lookup ip = some listener := by
  rw [collectIdle, lookup_eraseAll, if_neg, h]
  intro hidle
  obtain ⟨⟨ip', other⟩, hentry, rfl⟩ := List.mem_map.1 hidle
  obtain ⟨hentry, hempty⟩ := List.mem_filter.1 hentry
  rw [mem_entries_iff, h] at hentry
  rw [Option.some.inj hentry] at hbusy
  exact absurd hempty (by simp [hbusy])

theorem registered_applySet (h : Registered cfg side) (set : RouteSet) :
    Registered cfg (side.applySet cfg env set) := by
  have hreconciled := registered_reconcile h set.hosts_nodup
    (reconcile_reconcileHttps cfg env side set.routes)
  refine ⟨?_, hreconciled.handle⟩
  intro ip listener hlookup
  exact hreconciled.listeners ip listener (of_lookup_collectIdle hlookup)

theorem registered_step {event : HttpsEvent} (h : Registered cfg side)
    (hstep : side.step cfg event = some next) : Registered cfg next := by
  cases event with
  | applySet env set =>
      cases hstep
      exact registered_applySet h set
  | reloadHost files hostname =>
      cases hstep
      exact ⟨h.listeners, h.handle⟩

/-! ## The listener of a running frontend -/

def Attended (side : HttpsSide) : Prop :=
  ∀ handle, side.active = some handle → ∃ listener,
    side.redirectListeners.lookup handle.redirectIp = some listener ∧ listener.isEmpty = false

theorem attended_of_idle (h : side.active = none) : Attended side := by
  intro handle hactive
  rw [h] at hactive
  cases hactive

theorem busy_of_routes {certLess : List String} (hdesired : desired ≠ [])
    (hnodup : (hostsOf desired).Nodup) (htended : Tended cfg (loadedHosts certLess desired)
      (listener.registerPlaintextRoutes (certLessRoutes certLess desired) httpsFrontendName)) :
    (listener.registerPlaintextRoutes (certLessRoutes certLess desired)
      httpsFrontendName).isEmpty = false := by
  obtain ⟨route, hroute⟩ := List.exists_mem_of_ne_nil desired hdesired
  rcases loaded_or_certLess hroute with hloaded | hless
  · exact not_isEmpty_of_mem (.inl ((mem_of_exactly htended.redirects).2 hloaded))
  · exact not_isEmpty_of_mem (.inr (mem_extend_of_mem (nodup_hostsOf_filter _ hnodup) hless))

theorem attended_respawn (h : Registered cfg side) (hdesired : desired ≠ [])
    (hnodup : (hostsOf desired).Nodup)
    (hrespawn : Respawn cfg env side desired next) : Attended next := by
  have hnext := registered_respawn h hnodup hrespawn
  cases hrespawn with
  | loadFailed => exact attended_of_idle side.active_teardown
  | companionFailed => exact attended_of_idle side.active_teardown
  | frontendFailed => exact attended_of_idle side.active_teardown
  | spawned hload hcompanion hh3 =>
      intro handle hhandle
      cases hhandle
      refine ⟨_, AList.lookup_insert _, ?_⟩
      exact busy_of_routes hdesired hnodup (hnext.listeners _ _ (AList.lookup_insert _)).2

theorem attended_reconcile (h : Registered cfg side) (hattended : Attended side)
    (hnodup : (hostsOf desired).Nodup)
    (hreconcile : Reconcile cfg env side desired next) : Attended next := by
  cases hreconcile with
  | emptied => exact attended_of_idle side.active_teardown
  | spawned hdesired hidle hrespawn => exact attended_respawn h hdesired hnodup hrespawn
  | unchanged => exact hattended
  | swapped hdesired hactive hswap =>
      have hnext := registered_swap h hactive hswap
      cases hswap with
      | swapped hload hlistener =>
          intro handle hhandle
          cases hhandle
          refine ⟨_, AList.lookup_insert _, ?_⟩
          exact busy_of_routes hdesired hnodup (hnext.listeners _ _ (AList.lookup_insert _)).2
  | respawned hdesired hactive hswap hrespawn =>
      exact attended_respawn (registered_swap h hactive hswap) hdesired hnodup hrespawn

theorem attended_step {event : HttpsEvent} (h : Registered cfg side) (hattended : Attended side)
    (hstep : side.step cfg event = some next) : Attended next := by
  cases event with
  | applySet env set =>
      cases hstep
      intro handle hhandle
      obtain ⟨listener, hlookup, hbusy⟩ := attended_reconcile h hattended set.hosts_nodup
        (reconcile_reconcileHttps cfg env side set.routes) handle hhandle
      exact ⟨listener, lookup_collectIdle_of_busy hlookup hbusy, hbusy⟩
  | reloadHost files hostname =>
      cases hstep
      exact hattended

theorem running_of_run {events : List HttpsEvent} (hrun : run (step cfg) start events = some side) :
    Registered cfg side ∧ Attended side := by
  refine run_invariant (step cfg) (P := fun side => Registered cfg side ∧ Attended side) ?_
    ⟨registered_start, attended_of_idle rfl⟩ hrun
  rintro side event next ⟨hregistered, hattended⟩ hstep
  exact ⟨registered_step hregistered hstep, attended_step hregistered hattended hstep⟩

end HttpsSide

def toyCertConfig : CertConfig :=
  ⟨"/certs", none, none, none, ⟨.v4 1, 443⟩, true, fun _ => false⟩

def toySurroundings (present : Bool) (malformed : List String) : HttpsSurroundings where
  files :=
    { isFile := fun _ => present
      loadPemPair := fun _ host _ _ =>
        if host ∈ malformed then .error ⟨"malformed PEM"⟩ else .ok [1]
      readDefaultCertSans := fun _ => .ok [] }
  binds := fun _ => true
  h3Spawns := true

def toyRoute (hostname : String) : HttpRoute := ⟨hostname, "http://127.0.0.1:8080", none, []⟩

def noRoutes : RouteSet := ⟨[], by decide⟩

def oneRoute : RouteSet := ⟨[toyRoute "a.test"], by decide⟩

def twoRoutes : RouteSet := ⟨[toyRoute "a.test", toyRoute "b.test"], by decide⟩

def threeRoutes : RouteSet :=
  ⟨[toyRoute "a.test", toyRoute "b.test", toyRoute "c.test"], by decide⟩

end Yggdrasil.Proxy
