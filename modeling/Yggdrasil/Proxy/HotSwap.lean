import Yggdrasil.Proxy.CertLoading

/-!
# A swap in place and a respawn

The same new routes may be swapped into the running frontend, or the frontend
may be torn down and spawned afresh.  The swap loads certificates for added
routes only; a route that stays keeps what the store holds for it.  The spawn
loads them all, and goes by what it finds on disk.
-/

namespace Yggdrasil.Proxy

open Foundation Ratatoskr

namespace HttpsSide

/-- The same certificate hosts, watched paths, redirects, plaintext routes and TLS routes. -/
structure Agrees (one other : HttpsSide) : Prop where
  certStore : ∀ host, host ∈ one.certStore.entries ↔ host ∈ other.certStore.entries
  certWatcher : ∀ host, one.certWatcher.lookup host = other.certWatcher.lookup host
  redirects : ∀ ip host,
    (one.redirectListeners.lookup ip).bind (fun listener => listener.hosts.lookup host) =
      (other.redirectListeners.lookup ip).bind (fun listener => listener.hosts.lookup host)
  plaintext : ∀ ip host,
    (one.redirectListeners.lookup ip).bind (fun listener => listener.plaintextRoutes.lookup host) =
      (other.redirectListeners.lookup ip).bind
        (fun listener => listener.plaintextRoutes.lookup host)
  frontend : ∀ host, one.active.map (fun handle => handle.frontend.lookup host) =
    other.active.map (fun handle => handle.frontend.lookup host)

def routeEntry (routes : List HttpRoute) (host : String) : Option RouteEntry :=
  (findKey HttpRoute.key routes host).map (RouteEntry.of httpsFrontendName)

/--
What the tables hold after the routes of `base` were replaced: a route is
`stored` where the store has a certificate for it, and `certified` where the
companion redirects it.
-/
structure Described (cfg : CertConfig) (base : HttpsSide) (desired : List HttpRoute)
    (stored certified : HttpRoute → Bool) (watched : HttpRoute → Option (List Path))
    (side : HttpsSide) : Prop where
  certStore : ∀ route ∈ desired, route.key ∈ side.certStore.entries ↔ stored route = true
  certWatcher : ∀ route ∈ desired, side.certWatcher.lookup route.key = watched route
  redirects : ∀ ip host,
    (side.redirectListeners.lookup ip).bind (fun listener => listener.hosts.lookup host) =
      if ip = cfg.httpsListen.ip ∧ host ∈ hostsOf (desired.filter certified) then some 1 else none
  plaintext : ∀ ip host,
    (side.redirectListeners.lookup ip).bind (fun listener => listener.plaintextRoutes.lookup host) =
      if ip = cfg.httpsListen.ip then
        routeEntry (desired.filter (fun route => !certified route)) host
      else none
  frontend : ∀ host, side.active.map (fun handle => handle.frontend.lookup host) =
    some (routeEntry (desired.filter stored) host)
  otherCerts : ∀ host ∉ hostsOf desired, host ∈ side.certStore.entries ↔
    host ∈ base.certStore.entries ∧ host ∉ hostsOf base.prevRoutes
  otherWatches : ∀ host ∉ hostsOf desired, side.certWatcher.lookup host =
    if host ∈ hostsOf base.prevRoutes then none else base.certWatcher.lookup host

section

variable {cfg : CertConfig} {base one other : HttpsSide} {desired : List HttpRoute}
  {stored stored' certified certified' : HttpRoute → Bool}
  {watched watched' : HttpRoute → Option (List Path)}

theorem mem_hostsOf_filter (hnodup : (hostsOf desired).Nodup) {route : HttpRoute}
    (hroute : route ∈ desired) (keep : HttpRoute → Bool) :
    route.key ∈ hostsOf (desired.filter keep) ↔ keep route = true := by
  constructor
  · intro hkey
    obtain ⟨found, hfound, hsame⟩ := List.mem_map.1 hkey
    rw [List.mem_filter] at hfound
    obtain rfl := List.inj_on_of_nodup_map hnodup hfound.1 hroute hsame
    exact hfound.2
  · intro hkeep
    exact List.mem_map_of_mem (List.mem_filter.2 ⟨hroute, hkeep⟩)

theorem agrees_iff_of_described (hnodup : (hostsOf desired).Nodup)
    (hone : Described cfg base desired stored certified watched one)
    (hother : Described cfg base desired stored' certified' watched' other) :
    one.Agrees other ↔ ∀ route ∈ desired, stored route = stored' route ∧
      certified route = certified' route ∧ watched route = watched' route := by
  constructor
  · intro hagrees route hroute
    refine ⟨?_, ?_, ?_⟩
    · have hsame := hagrees.certStore route.key
      rw [hone.certStore route hroute, hother.certStore route hroute] at hsame
      exact Bool.eq_iff_iff.2 hsame
    · have hsame := hagrees.redirects cfg.httpsListen.ip route.key
      simp only [hone.redirects, hother.redirects, true_and, mem_hostsOf_filter hnodup hroute]
        at hsame
      cases hcert : certified route <;> cases hcert' : certified' route <;>
        simp [hcert, hcert'] at hsame ⊢
    · rw [← hone.certWatcher route hroute, ← hother.certWatcher route hroute]
      exact hagrees.certWatcher route.key
  · intro hsame
    have hstored : desired.filter stored = desired.filter stored' :=
      List.filter_congr fun route hroute => (hsame route hroute).1
    have hcertified : desired.filter certified = desired.filter certified' :=
      List.filter_congr fun route hroute => (hsame route hroute).2.1
    have hcertLess : desired.filter (fun route => !certified route) =
        desired.filter (fun route => !certified' route) :=
      List.filter_congr fun route hroute => congrArg (!·) (hsame route hroute).2.1
    refine ⟨fun host => ?_, fun host => ?_, fun ip host => ?_, fun ip host => ?_, fun host => ?_⟩
    · by_cases hhost : host ∈ hostsOf desired
      · obtain ⟨route, hroute, rfl⟩ := List.mem_map.1 hhost
        rw [hone.certStore route hroute, hother.certStore route hroute, (hsame route hroute).1]
      · rw [hone.otherCerts host hhost, hother.otherCerts host hhost]
    · by_cases hhost : host ∈ hostsOf desired
      · obtain ⟨route, hroute, rfl⟩ := List.mem_map.1 hhost
        rw [hone.certWatcher route hroute, hother.certWatcher route hroute, (hsame route hroute).2.2]
      · rw [hone.otherWatches host hhost, hother.otherWatches host hhost]
    · rw [hone.redirects, hother.redirects, hcertified]
    · rw [hone.plaintext, hother.plaintext, hcertLess]
    · rw [hone.frontend, hother.frontend, hstored]

end

section

variable {cfg : CertConfig} {env : HttpsSurroundings} {side next : HttpsSide}
  {desired : List HttpRoute} {store : CertStore}

theorem bind_redirectListeners (h : Registered cfg side) {listener : RedirectListener}
    (hlistener : side.redirectListeners.lookup cfg.httpsListen.ip = some listener)
    (ip : IpAddr) {α : Type} (f : RedirectListener → Option α) :
    (side.redirectListeners.lookup ip).bind f =
      if ip = cfg.httpsListen.ip then f listener else none := by
  split_ifs with hip
  · rw [hip, hlistener, Option.bind_some]
  · cases hlookup : side.redirectListeners.lookup ip with
    | none => rfl
    | some other => exact absurd (h.listeners ip other hlookup).1 hip

theorem lookup_redirects (h : Registered cfg side) {listener : RedirectListener}
    (hlistener : side.redirectListeners.lookup cfg.httpsListen.ip = some listener)
    (ip : IpAddr) (host : String) :
    (side.redirectListeners.lookup ip).bind (fun listener => listener.hosts.lookup host) =
      if ip = cfg.httpsListen.ip ∧ host ∈ side.claimedHosts then some 1 else none := by
  rw [bind_redirectListeners h hlistener, (h.listeners _ _ hlistener).2.redirects host, ite_and]

theorem lookup_plaintext (h : Registered cfg side) {listener : RedirectListener}
    {routes : List HttpRoute} (hnodup : (hostsOf routes).Nodup)
    (hempty : ∀ host, listener.plaintextRoutes.lookup host = none)
    (hlistener : side.redirectListeners.lookup cfg.httpsListen.ip =
      some (listener.registerPlaintextRoutes routes httpsFrontendName))
    (ip : IpAddr) (host : String) :
    (side.redirectListeners.lookup ip).bind (fun listener => listener.plaintextRoutes.lookup host) =
      if ip = cfg.httpsListen.ip then routeEntry routes host else none := by
  have hfill : (listener.registerPlaintextRoutes routes
      httpsFrontendName).plaintextRoutes.lookup host = _ :=
    lookup_fill HttpRoute.key (RouteEntry.of httpsFrontendName) hnodup host
  rw [bind_redirectListeners h hlistener, hfill, hempty, Option.or_none, routeEntry]

theorem lookup_frontendTable_eq (hnodup : (hostsOf desired).Nodup) (host : String) :
    (frontendTable store desired).lookup host =
      routeEntry (desired.filter (fun route => store.contains route.hostname)) host := by
  rw [frontendTable, lookup_build (nodup_hostsOf_filter _ hnodup), routeEntry]

theorem mem_removedHosts_iff {host : String} (hhost : host ∉ hostsOf desired) :
    host ∈ side.removedHosts desired ↔ host ∈ hostsOf side.prevRoutes := by
  simp [removedHosts, mem_difference, hhost]

theorem contains_swappedStore {route : HttpRoute} (hroute : route ∈ desired) :
    (side.swappedStore store desired).contains route.hostname = store.contains route.hostname := by
  rw [contains_eq, contains_eq, lookup_swappedStore hroute]

def watchedPaths (store : CertStore) (watcher : CertWatcher) (certified : HttpRoute → Bool)
    (route : HttpRoute) : Option (List Path) :=
  if certified route then
    (store.entries.lookup route.key).map (fun entry => entry.origin.watchedPaths)
  else watcher.lookup route.key

theorem mem_swappedHosts (hnodup : (hostsOf desired).Nodup) {route : HttpRoute}
    (hroute : route ∈ desired) :
    route.key ∈ swappedHosts store desired ↔ store.contains route.hostname = true := by
  rw [swappedHosts, loadedHosts_certLessIn, mem_hostsOf_filter hnodup hroute]

theorem described_swap (h : Registered cfg side) {handle : HttpsHandle}
    (hactive : side.active = some handle) (hnodup : (hostsOf desired).Nodup)
    {files : CertFiles} {certLess : List String}
    (hload : side.loadAdded cfg files desired = (store, .ok certLess))
    (hswap : Swap cfg files side handle desired (next, .ok ())) :
    Described cfg side desired (fun route => store.contains route.hostname)
      (fun route => store.contains route.hostname)
      (watchedPaths store side.certWatcher (fun route => store.contains route.hostname)) next := by
  have hip := (h.handle handle hactive).1
  have hregistered : Registered cfg next := registered_swap h hactive hswap
  cases hswap with
  | @swapped store' certLess' listener hload' hlistener =>
      obtain ⟨rfl, -⟩ := Prod.mk.inj (hload.symm.trans hload')
      have htended := (h.listeners _ listener hlistener).2
      rw [claimedHosts_of_active hactive] at htended
      have hlower : ∀ host ∈ swappedHosts store desired, toAsciiLowercase host = host :=
        lower_loadedHosts
      have hclaimed := tended_swapHosts htended (lower_redirectHosts h hactive) hlower
      have hcertLess : (hostsOf (certLessRoutes (certLessIn store desired) desired)).Nodup :=
        nodup_hostsOf_filter _ hnodup
      rw [hip] at hregistered ⊢
      constructor
      case certStore =>
        intro route hroute
        rw [← contains_swappedStore hroute, contains_iff]
        rfl
      case certWatcher =>
        intro route hroute
        have hmem : route.key ∈ hostsOf desired := List.mem_map_of_mem hroute
        simp only [lookup_swappedWatcher, mem_swappedHosts hnodup hroute,
          notMem_removedHosts hmem, if_false, watchedPaths]
      case redirects =>
        intro ip host
        rw [lookup_redirects hregistered (AList.lookup_insert _), ← loadedHosts_certLessIn]
        rfl
      case plaintext =>
        intro ip host
        rw [lookup_plaintext hregistered hcertLess (lookup_unregisterPlaintextRoutes hclaimed)
          (AList.lookup_insert _), certLessRoutes_certLessIn]
      case frontend =>
        intro host
        simp only [Option.map_some, swappedHandle, lookup_frontendTable_eq hnodup]
        congr 2
        exact List.filter_congr fun route hroute => contains_swappedStore hroute
      case otherCerts =>
        intro host hhost
        simp only [mem_iff_lookup, swappedStore, lookup_foldl_remove removedHosts_subset,
          mem_removedHosts_iff hhost, lookup_of_loadAdded hload (notMem_addedRoutes (.inl hhost))]
        by_cases hprev : host ∈ hostsOf side.prevRoutes <;> simp [hprev]
      case otherWatches =>
        intro host hhost
        have hnot : host ∉ swappedHosts store desired := fun hmem => hhost (loadedHosts_subset hmem)
        simp only [lookup_swappedWatcher, hnot, if_false, mem_removedHosts_iff hhost]

theorem described_respawn (h : Registered cfg side) {handle : HttpsHandle}
    (hactive : side.active = some handle) (hnodup : (hostsOf desired).Nodup)
    {certLess : List String}
    (hload : loadRoutes cfg env.files desired side.teardown.certStore = (store, .ok certLess))
    (hrespawn : Respawn cfg env side desired next) (hspawned : next.active ≠ none) :
    Described cfg side desired (fun route => store.contains route.hostname)
      (fun route => !isCertLess certLess route)
      (watchedPaths store side.teardown.certWatcher (fun route => !isCertLess certLess route))
      next := by
  have hregistered := registered_respawn h hnodup hrespawn
  cases hrespawn with
  | loadFailed => exact absurd side.active_teardown hspawned
  | companionFailed => exact absurd side.active_teardown hspawned
  | frontendFailed => exact absurd side.active_teardown hspawned
  | @spawned store' certLess' listener h3 hload' hcompanion hh3 =>
      obtain ⟨rfl, hsame⟩ := Prod.mk.inj (hload.symm.trans hload')
      cases hsame
      have htended := tended_companion (registered_teardown h) side.active_teardown hcompanion
      have hlower : ∀ host ∈ loadedHosts certLess desired, toAsciiLowercase host = host :=
        lower_loadedHosts
      have hclaimed := tended_registerHosts htended hlower (nodup_loadedHosts hnodup) (by simp)
      have hcertLess : (hostsOf (certLessRoutes certLess desired)).Nodup :=
        nodup_hostsOf_filter _ hnodup
      have hstored := stored_of_mem_loadedHosts hnodup hload
      constructor
      case certStore =>
        intro route hroute
        rw [contains_iff]
        rfl
      case certWatcher =>
        intro route hroute
        have hmem : route.key ∈ loadedHosts certLess desired ↔ (!isCertLess certLess route) = true :=
          mem_hostsOf_filter hnodup hroute _
        simp only [lookup_registerLoaded hlower hstored, hmem, watchedPaths]
      case redirects =>
        intro ip host
        rw [lookup_redirects hregistered (AList.lookup_insert _)]
        rfl
      case plaintext =>
        intro ip host
        rw [lookup_plaintext hregistered hcertLess (lookup_unregisterPlaintextRoutes hclaimed)
          (AList.lookup_insert _)]
        simp only [Bool.not_not, certLessRoutes]
      case frontend =>
        intro host
        simp only [Option.map_some, lookup_frontendTable_eq hnodup]
      case otherCerts =>
        intro host hhost
        simp only [mem_iff_lookup, lookup_of_loadRoutes hload hhost,
          (lookup_teardown hactive host).1]
        by_cases hprev : host ∈ hostsOf side.prevRoutes <;> simp [hprev]
      case otherWatches =>
        intro host hhost
        have hnot : host ∉ loadedHosts certLess desired := fun hmem => hhost (loadedHosts_subset hmem)
        simp only [lookup_registerLoaded hlower hstored, hnot, if_false,
          (lookup_teardown hactive host).2]

end

/-! ## Where the two ways part -/

def Respawns (cfg : CertConfig) (env : HttpsSurroundings) (side : HttpsSide)
    (desired : List HttpRoute) : Prop :=
  ∃ handle, (side.teardown.spawnHttpsFrontend cfg env desired).2 = .ok handle

/--
For a route that stays, the store holds a certificate with the paths of the one
on disk, or there is none in either place and none is watched for.  For an added
route without one on disk, the store holds no certificate from earlier.
-/
def Fits (cfg : CertConfig) (files : CertFiles) (side : HttpsSide) (route : HttpRoute) : Prop :=
  if route.key ∈ hostsOf side.prevRoutes then
    match side.certStore.entries.lookup route.key, onDisk cfg files route with
    | some held, .ok (some found) => held.origin.watchedPaths = found.origin.watchedPaths
    | none, .ok none => side.certWatcher.lookup route.key = none
    | _, _ => False
  else onDisk cfg files route = .ok none → side.certStore.entries.lookup route.key = none

section

variable {cfg : CertConfig} {env : HttpsSurroundings} {side next : HttpsSide}
  {desired : List HttpRoute}

theorem active_spawnHttpsFrontend (cfg : CertConfig) (env : HttpsSurroundings) (side : HttpsSide)
    (desired : List HttpRoute) :
    (side.spawnHttpsFrontend cfg env desired).1.active = side.active := by
  unfold spawnHttpsFrontend
  split
  · rfl
  · simp only
    split
    · rfl
    · split <;> rfl

theorem respawns_iff : Respawns cfg env side desired ↔
    (side.respawn cfg env desired).active ≠ none := by
  have hidle := (active_spawnHttpsFrontend cfg env side.teardown desired).trans
    side.active_teardown
  unfold Respawns respawn
  cases hspawn : side.teardown.spawnHttpsFrontend cfg env desired with
  | mk after outcome =>
      rw [hspawn] at hidle
      cases outcome with
      | error e => simpa using hidle
      | ok handle => simp

theorem loadRoutes_of_respawns (h : Respawns cfg env side desired) :
    ∃ store certLess,
      loadRoutes cfg env.files desired side.teardown.certStore = (store, .ok certLess) := by
  have hspawned := respawns_iff.1 h
  have hrespawn := respawn_respawn cfg env side desired
  generalize side.respawn cfg env desired = next at hspawned hrespawn
  cases hrespawn with
  | loadFailed => exact absurd side.active_teardown hspawned
  | companionFailed hload => exact ⟨_, _, hload⟩
  | frontendFailed hload => exact ⟨_, _, hload⟩
  | spawned hload => exact ⟨_, _, hload⟩

theorem loadAdded_of_respawns (hnodup : (hostsOf desired).Nodup)
    (h : Respawns cfg env side desired) :
    ∃ store certLess, side.loadAdded cfg env.files desired = (store, .ok certLess) := by
  obtain ⟨store, certLess, hload⟩ := loadRoutes_of_respawns h
  unfold loadAdded
  split
  · exact ⟨_, _, rfl⟩
  · next hadded =>
      refine loadRoutes_ok_of_loadable hadded (fun route hroute => ?_) _
      obtain ⟨found, hfound, -⟩ := loadRoutes_ok hnodup hload route (List.mem_filter.1 hroute).1
      exact ⟨found, hfound⟩

theorem lookup_loadAdded (hnodup : (hostsOf desired).Nodup) {files : CertFiles} {store : CertStore}
    {certLess : List String} (hload : side.loadAdded cfg files desired = (store, .ok certLess))
    {route : HttpRoute} (hroute : route ∈ desired) {found : Option CertEntry}
    (hfound : onDisk cfg files route = .ok found) :
    store.entries.lookup route.key =
      if route.key ∈ hostsOf side.prevRoutes then side.certStore.entries.lookup route.key
      else found.or (side.certStore.entries.lookup route.key) := by
  split
  · next hprev => exact lookup_of_loadAdded hload (notMem_addedRoutes (.inr hprev))
  · next hprev =>
      have hadded : route ∈ side.addedRoutes desired :=
        List.mem_filter.2 ⟨hroute, by simpa using hprev⟩
      rw [loadAdded, if_neg (List.ne_nil_of_mem hadded)] at hload
      obtain ⟨found', hfound', -, hlookup⟩ :=
        loadRoutes_ok (nodup_hostsOf_filter _ hnodup) hload route hadded
      cases hfound.symm.trans hfound'
      exact hlookup

variable {handle : HttpsHandle}

theorem treated_alike_iff (hactive : side.active = some handle) {files : CertFiles}
    {route : HttpRoute} {found : Option CertEntry} (hfound : onDisk cfg files route = .ok found)
    {swapped spawned : CertStore} (hswapped : swapped.entries.lookup route.key =
      if route.key ∈ hostsOf side.prevRoutes then side.certStore.entries.lookup route.key
      else found.or (side.certStore.entries.lookup route.key))
    (hspawned : spawned.entries.lookup route.key =
      found.or (side.teardown.certStore.entries.lookup route.key)) {certLess : List String}
    (hless : isCertLess certLess route = found.isNone) :
    (swapped.contains route.hostname = spawned.contains route.hostname ∧
      swapped.contains route.hostname = (!isCertLess certLess route) ∧
      watchedPaths swapped side.certWatcher (fun route => swapped.contains route.hostname) route =
        watchedPaths spawned side.teardown.certWatcher (fun route => !isCertLess certLess route)
          route) ↔
    Fits cfg files side route := by
  obtain ⟨hstore, hwatcher⟩ := lookup_teardown hactive route.key
  simp only [contains_eq, watchedPaths, Fits, hswapped, hspawned, hstore, hwatcher, hless, hfound]
  -- the teardown empties both tables for a route that stays; an added one is resolved both ways
  by_cases hprev : route.key ∈ hostsOf side.prevRoutes
  · cases hheld : side.certStore.entries.lookup route.key <;> cases found <;> simp [hprev]
  · cases hheld : side.certStore.entries.lookup route.key <;> cases found <;> simp [hprev]

theorem agrees_iff_of_respawns (h : Registered cfg side) (hactive : side.active = some handle)
    (hnodup : (hostsOf desired).Nodup)
    (hswap : Swap cfg env.files side handle desired (next, .ok ()))
    (hrespawns : Respawns cfg env side desired) :
    next.Agrees (side.respawn cfg env desired) ↔
      ∀ route ∈ desired, Fits cfg env.files side route := by
  obtain ⟨swapped, added, hadded⟩ := loadAdded_of_respawns hnodup hrespawns
  obtain ⟨spawned, certLess, hload⟩ := loadRoutes_of_respawns hrespawns
  rw [agrees_iff_of_described hnodup (described_swap h hactive hnodup hadded hswap)
    (described_respawn h hactive hnodup hload (respawn_respawn cfg env side desired)
      (respawns_iff.1 hrespawns))]
  apply forall₂_congr
  intro route hroute
  obtain ⟨found, hfound, hless, hspawned⟩ := loadRoutes_ok hnodup hload route hroute
  exact treated_alike_iff hactive hfound (lookup_loadAdded hnodup hadded hroute hfound) hspawned
    hless

theorem not_agrees_of_not_respawns (hswap : Swap cfg env.files side handle desired (next, .ok ()))
    (hfails : ¬ Respawns cfg env side desired) : ¬ next.Agrees (side.respawn cfg env desired) := by
  intro hagrees
  have hidle : (side.respawn cfg env desired).active = none := by
    by_contra hactive
    exact hfails (respawns_iff.2 hactive)
  cases hswap with
  -- after the swap there is a frontend, whichever host is asked for
  | swapped => simpa [hidle] using hagrees.frontend ""

/--
In every state with a running frontend and for every new set of routes: the
swap succeeds where the respawn would.  After a swap that succeeds, the tables
are those of the respawn exactly if the respawn succeeds and every new route
fits.
-/
theorem hot_swap_agrees_iff {events : List HttpsEvent} {handle : HttpsHandle}
    (env : HttpsSurroundings) (set : RouteSet)
    (hrun : run (step cfg) start events = some side) (hactive : side.active = some handle) :
    (Respawns cfg env side set.routes →
      (side.tryHotSwapRoutes cfg env.files handle set.routes).2 = .ok ()) ∧
    ((side.tryHotSwapRoutes cfg env.files handle set.routes).2 = .ok () →
      ((side.tryHotSwapRoutes cfg env.files handle set.routes).1.Agrees
          (side.respawn cfg env set.routes) ↔
        Respawns cfg env side set.routes ∧
          ∀ route ∈ set.routes, Fits cfg env.files side route)) := by
  obtain ⟨hregistered, hattended⟩ := running_of_run hrun
  obtain ⟨listener, hlistener, -⟩ := hattended handle hactive
  constructor
  · intro hrespawns
    obtain ⟨store, certLess, hload⟩ := loadAdded_of_respawns set.hosts_nodup hrespawns
    simp only [tryHotSwapRoutes, hload, hlistener]
  · intro hok
    have hswap := swap_tryHotSwapRoutes cfg env.files side handle set.routes
    generalize side.tryHotSwapRoutes cfg env.files handle set.routes = result at hok hswap
    obtain ⟨next, outcome⟩ := result
    subst hok
    by_cases hrespawns : Respawns cfg env side set.routes
    · simp only [hrespawns, true_and]
      exact agrees_iff_of_respawns hregistered hactive set.hosts_nodup hswap hrespawns
    · simp only [hrespawns, false_and, iff_false]
      exact not_agrees_of_not_respawns hswap hrespawns

end

def secondCertified : HttpsSurroundings :=
  { toySurroundings true [] with
    files := { (toySurroundings true []).files with
      isFile := fun path =>
        path == "/certs/b.test/fullchain.pem" || path == "/certs/b.test/privkey.pem" } }

/--
A certificate put on disk for a route that had none is not seen by the swap that
adds another route, and the companion goes on serving it in plaintext.  And a
certificate that no longer parses stops the respawn but not the swap.
-/
theorem hot_swap_disagrees :
    (∃ side handle, run (step toyCertConfig) start [.applySet secondCertified twoRoutes] =
        some side ∧ side.active = some handle ∧
      Respawns toyCertConfig (toySurroundings true []) side threeRoutes.routes ∧
      (side.tryHotSwapRoutes toyCertConfig (toySurroundings true []).files handle
        threeRoutes.routes).2 = .ok () ∧
      ¬ (side.tryHotSwapRoutes toyCertConfig (toySurroundings true []).files handle
        threeRoutes.routes).1.Agrees
          (side.respawn toyCertConfig (toySurroundings true []) threeRoutes.routes)) ∧
    (∃ side handle, run (step toyCertConfig) start
        [.applySet (toySurroundings true []) oneRoute] = some side ∧
      side.active = some handle ∧
      ¬ Respawns toyCertConfig (toySurroundings true ["a.test"]) side twoRoutes.routes ∧
      (side.tryHotSwapRoutes toyCertConfig (toySurroundings true ["a.test"]).files handle
        twoRoutes.routes).2 = .ok ()) := by
  constructor
  · refine ⟨_, _, rfl, rfl, ⟨_, rfl⟩, rfl, fun hagrees => ?_⟩
    have hmem := (hagrees.certStore "a.test").2 (by decide)
    exact absurd hmem (by decide)
  · refine ⟨_, _, rfl, rfl, ?_, rfl⟩
    rintro ⟨handle, hhandle⟩
    cases hhandle

theorem hot_swap_agrees_on_added_route :
    ∃ side handle, run (step toyCertConfig) start [.applySet (toySurroundings true []) oneRoute] =
        some side ∧ side.active = some handle ∧
      (side.tryHotSwapRoutes toyCertConfig (toySurroundings true []).files handle
        twoRoutes.routes).1.Agrees
          (side.respawn toyCertConfig (toySurroundings true []) twoRoutes.routes) := by
  let side := applySet toyCertConfig (toySurroundings true []) start oneRoute
  have hrun : run (step toyCertConfig) start [.applySet (toySurroundings true []) oneRoute] =
      some side := rfl
  obtain ⟨handle, hactive⟩ : ∃ handle, side.active = some handle := ⟨_, rfl⟩
  have hrespawns : Respawns toyCertConfig (toySurroundings true []) side twoRoutes.routes := ⟨_, rfl⟩
  have hfits : ∀ route ∈ twoRoutes.routes,
      Fits toyCertConfig (toySurroundings true []).files side route := by
    simp only [twoRoutes, List.forall_mem_cons]
    refine ⟨?_, ?_, List.forall_mem_nil _⟩
    · rw [Fits, if_pos (by decide)]
      rfl
    · rw [Fits, if_neg (by decide)]
      intro hnone
      cases hnone
  have hagrees := hot_swap_agrees_iff (toySurroundings true []) twoRoutes hrun hactive
  exact ⟨side, handle, hrun, hactive, (hagrees.2 (hagrees.1 hrespawns)).2 ⟨hrespawns, hfits⟩⟩

end HttpsSide

end Yggdrasil.Proxy
