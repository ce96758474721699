import Yggdrasil.Proxy.CertLoading

/-!
# Watched paths and the certificate in use

The watcher takes a host's paths from its certificate when the host is
registered.  A reload may find the certificate elsewhere, and a load that fails
may have replaced it before; neither registers the host again.
-/

namespace Yggdrasil.Proxy

open Foundation Ratatoskr

def CertWatcher.affected (watcher : CertWatcher) (changed : List Path) : List String :=
  (changed.flatMap (fun path =>
    (watcher.entries.filter (fun entry => entry.2.contains path)).map Sigma.fst)).dedup

theorem mem_affected {watcher : CertWatcher} {changed : List Path} {host : String} :
    host ∈ watcher.affected changed ↔
      ∃ path ∈ changed, ∃ paths, watcher.lookup host = some paths ∧ path ∈ paths := by
  simp only [CertWatcher.affected, List.mem_dedup, List.mem_flatMap, List.mem_map, List.mem_filter,
    List.contains_iff_mem]
  constructor
  · rintro ⟨path, hpath, ⟨other, paths⟩, ⟨hentry, hmem⟩, rfl⟩
    exact ⟨path, hpath, paths, (mem_entries_iff watcher).1 hentry, hmem⟩
  · rintro ⟨path, hpath, paths, hlookup, hmem⟩
    exact ⟨path, hpath, ⟨host, paths⟩, ⟨(mem_entries_iff watcher).2 hlookup, hmem⟩, rfl⟩

section

variable {cfg : CertConfig} {files : CertFiles} {routes : List HttpRoute}
  {store loaded : CertStore} {certLess : List String} {entry : CertEntry} {host : String}

theorem of_lookup_loadRoutes {outcome : Except CertError (List String)}
    (hload : loadRoutes cfg files routes store = (loaded, outcome))
    (h : loaded.entries.lookup host = some entry) :
    store.entries.lookup host = some entry ∨
      ∃ route ∈ routes, route.key = host ∧ onDisk cfg files route = .ok (some entry) := by
  unfold loadRoutes loadRoutesIntoStore at hload
  cases hsans : serverDefaultSans files cfg.serverDefault with
  | error e =>
      simp only [hsans, Prod.mk.injEq] at hload
      exact .inl (hload.1 ▸ h)
  | ok sans =>
      simp only [hsans] at hload
      simp only [onDisk_eq hsans]
      refine of_lookup_loadEach ?_
      rw [hload]
      exact h

theorem lookup_of_notMem_loadedHosts (hnodup : (hostsOf routes).Nodup)
    (h : loadRoutes cfg files routes store = (loaded, .ok certLess))
    (hhost : host ∉ loadedHosts certLess routes) :
    loaded.entries.lookup host = store.entries.lookup host := by
  by_cases hmem : host ∈ hostsOf routes
  · obtain ⟨route, hroute, rfl⟩ := List.mem_map.1 hmem
    obtain ⟨found, -, hless, hlookup⟩ := loadRoutes_ok hnodup h route hroute
    cases found with
    | none => simpa using hlookup
    | some entry =>
        exact absurd (List.mem_map_of_mem (List.mem_filter.2 ⟨hroute, by simp [hless]⟩)) hhost
  · exact lookup_of_loadRoutes h hmem

theorem not_loadable {e : CertError} (hroutes : routes ≠ [])
    (h : loadRoutes cfg files routes store = (loaded, .error e)) :
    ¬Loadable cfg files routes := by
  intro hall
  obtain ⟨loaded, certLess, hok⟩ := loadRoutes_ok_of_loadable hroutes hall store
  rw [hok] at h
  cases h

end

namespace HttpsSide

def Tracked (side : HttpsSide) : Prop :=
  ∀ host paths entry, side.certWatcher.lookup host = some paths →
    side.certStore.entries.lookup host = some entry → entry.origin.watchedPaths = paths

def ReloadsOnChange (side : HttpsSide) : Prop :=
  ∀ host entry path, host ∈ side.certWatcher → side.certStore.entries.lookup host = some entry →
    path ∈ entry.origin.watchedPaths → host ∈ side.certWatcher.affected [path]

variable {cfg : CertConfig} {env : HttpsSurroundings} {side next : HttpsSide}
  {desired : List HttpRoute}

theorem reloadsOnChange_of_tracked (h : side.Tracked) : side.ReloadsOnChange := by
  intro host entry path hhost hentry hpath
  obtain ⟨paths, hpaths⟩ := mem_iff_lookup.1 hhost
  rw [h host paths entry hpaths hentry] at hpath
  exact mem_affected.2 ⟨path, List.mem_singleton_self path, paths, hpaths, hpath⟩

/-- The routes a call loads the certificates of first. -/
def routesToLoad (side : HttpsSide) (desired : List HttpRoute) : List HttpRoute :=
  match side.active with
  | none => desired
  | some _ => side.addedRoutes desired

/-- The certificate is one that a call loaded before another route failed. -/
def Stray (cfg : CertConfig) (files : CertFiles) (routes : List HttpRoute) (host : String)
    (entry : CertEntry) : Prop :=
  ¬Loadable cfg files routes ∧
    ∃ route ∈ routes, route.key = host ∧ onDisk cfg files route = .ok (some entry)

/-- A step leaves a host unwatched, or watched where its certificate is now, or watched as it was,
with its certificate as it was or astray. -/
def Renewed (side next : HttpsSide) (host : String) (astray : CertEntry → Prop) : Prop :=
  next.certWatcher.lookup host = none ∨
    next.certWatcher.lookup host =
      (next.certStore.entries.lookup host).map (fun entry => entry.origin.watchedPaths) ∨
    next.certWatcher.lookup host = side.certWatcher.lookup host ∧
      ∀ entry, next.certStore.entries.lookup host = some entry →
        side.certStore.entries.lookup host = some entry ∨ astray entry

section

variable {host : String} {astray : CertEntry → Prop}

theorem renewed_refl : Renewed side side host astray :=
  .inr (.inr ⟨rfl, fun _ => .inl⟩)

/-- A host that is still watched after a teardown was not one of the routes torn down. -/
theorem renewed_of_teardown (h : Renewed side.teardown next host astray)
    {remain : CertEntry → Prop} (hremain : ∀ entry, astray entry →
      side.active = none ∨ host ∉ hostsOf side.prevRoutes → remain entry) :
    Renewed side next host remain := by
  rcases h with hgone | hnew | ⟨hwatched, hstored⟩
  · exact .inl hgone
  · exact .inr (.inl hnew)
  · cases hactive : side.active with
    | none =>
        rw [teardown, hactive] at hwatched hstored
        exact .inr (.inr ⟨hwatched, fun entry hentry =>
          (hstored entry hentry).imp_right fun hastray => hremain entry hastray (.inl hactive)⟩)
    | some handle =>
        obtain ⟨hstore, hwatcher⟩ := lookup_teardown hactive host
        by_cases hprev : host ∈ hostsOf side.prevRoutes
        · rw [hwatcher, if_pos hprev] at hwatched
          exact .inl hwatched
        · rw [if_neg hprev] at hstore hwatcher
          rw [hstore] at hstored
          exact .inr (.inr ⟨hwatched.trans hwatcher, fun entry hentry =>
            (hstored entry hentry).imp_right fun hastray => hremain entry hastray (.inr hprev)⟩)

theorem renewed_registerLoaded {files : CertFiles} {loaded : CertStore}
    {certLess : List String} (hnodup : (hostsOf desired).Nodup)
    (hload : loadRoutes cfg files desired side.certStore = (loaded, .ok certLess))
    (hstore : next.certStore = loaded)
    (hwatcher : next.certWatcher =
      registerLoaded loaded (loadedHosts certLess desired) side.certWatcher) :
    Renewed side next host astray := by
  have hlookup : next.certWatcher.lookup host = _ := hwatcher ▸
    lookup_registerLoaded lower_loadedHosts (stored_of_mem_loadedHosts hnodup hload) host
  by_cases hloaded : host ∈ loadedHosts certLess desired
  · rw [if_pos hloaded, ← hstore] at hlookup
    exact .inr (.inl hlookup)
  · rw [if_neg hloaded] at hlookup
    have hkept := lookup_of_notMem_loadedHosts hnodup hload hloaded
    rw [← hstore] at hkept
    exact .inr (.inr ⟨hlookup, fun entry hentry => .inl (hkept.symm.trans hentry)⟩)

theorem renewed_respawn (hdesired : desired ≠ []) (hnodup : (hostsOf desired).Nodup)
    (hrespawn : Respawn cfg env side desired next) :
    Renewed side.teardown next host (Stray cfg env.files desired host) := by
  cases hrespawn with
  | loadFailed hload =>
      exact .inr (.inr ⟨rfl, fun entry hentry => (of_lookup_loadRoutes hload hentry).imp_right
        fun hroute => ⟨not_loadable hdesired hload, hroute⟩⟩)
  | companionFailed hload => exact renewed_registerLoaded hnodup hload rfl rfl
  | @frontendFailed store certLess listener hload =>
      -- what was registered a moment ago is unregistered again
      have hgone : ((loadedHosts certLess desired).foldl CertWatcher.unregister
          (registerLoaded store (loadedHosts certLess desired)
            side.teardown.certWatcher)).lookup host = _ :=
        lookup_foldl_unregister loadedHosts_subset host
      have hkept : ((loadedHosts certLess desired).foldl CertStore.remove store).entries.lookup
          host = _ := lookup_foldl_remove loadedHosts_subset host
      by_cases hloaded : host ∈ loadedHosts certLess desired
      · rw [if_pos hloaded] at hgone
        exact .inl hgone
      · rw [if_neg hloaded, lookup_of_notMem_loadedHosts hnodup hload hloaded] at hkept
        rw [if_neg hloaded, lookup_registerLoaded lower_loadedHosts
          (stored_of_mem_loadedHosts hnodup hload), if_neg hloaded] at hgone
        exact .inr (.inr ⟨hgone, fun entry hentry => .inl (hkept.symm.trans hentry)⟩)
  | spawned hload => exact renewed_registerLoaded hnodup hload rfl rfl

theorem renewed_swap {files : CertFiles} {handle : HttpsHandle}
    (hswap : Swap cfg files side handle desired (next, .ok ())) :
    Renewed side next host astray := by
  cases hswap with
  | @swapped store certLess listener hload hlistener =>
      have hlookup : (side.swappedWatcher store desired).lookup host = _ :=
        lookup_swappedWatcher host
      by_cases hswapped : host ∈ swappedHosts store desired
      · rw [if_pos hswapped] at hlookup
        obtain ⟨route, hroute, rfl⟩ := List.mem_map.1 (loadedHosts_subset hswapped)
        right
        left
        rw [lookup_swappedStore hroute]
        exact hlookup
      · rw [if_neg hswapped] at hlookup
        by_cases hremoved : host ∈ side.removedHosts desired
        · rw [if_pos hremoved] at hlookup
          exact .inl hlookup
        · rw [if_neg hremoved] at hlookup
          refine .inr (.inr ⟨hlookup, fun entry hentry => .inl ?_⟩)
          simp only [swappedStore] at hentry
          rw [lookup_foldl_remove removedHosts_subset, if_neg hremoved] at hentry
          -- a host of the new set that is in the store was swapped in
          have hother : host ∉ hostsOf desired := by
            intro hdesired
            obtain ⟨route, hroute, rfl⟩ := List.mem_map.1 hdesired
            refine hswapped ?_
            rw [swappedHosts, loadedHosts_certLessIn]
            exact List.mem_map_of_mem (List.mem_filter.2 ⟨hroute, by simp [contains_eq, hentry]⟩)
          exact (lookup_of_loadAdded hload (notMem_addedRoutes (.inl hother))).symm.trans hentry

theorem loadAdded_error {files : CertFiles} {store : CertStore} {e : CertError}
    (hload : side.loadAdded cfg files desired = (store, .error e)) :
    side.addedRoutes desired ≠ [] ∧
      loadRoutes cfg files (side.addedRoutes desired) side.certStore = (store, .error e) := by
  unfold loadAdded at hload
  split at hload
  · cases hload
  · next hadded => exact ⟨hadded, hload⟩

theorem renewed_reconcile (hattended : Attended side) (hnodup : (hostsOf desired).Nodup)
    (hreconcile : Reconcile cfg env side desired next) :
    Renewed side next host (Stray cfg env.files (side.routesToLoad desired) host) := by
  cases hreconcile with
  | emptied => exact renewed_of_teardown renewed_refl fun _ hstray _ => hstray
  | spawned hdesired hidle hrespawn =>
      rw [routesToLoad, hidle]
      exact renewed_of_teardown (renewed_respawn hdesired hnodup hrespawn) fun _ hstray _ => hstray
  | unchanged => exact renewed_refl
  | swapped _ _ hswap => exact renewed_swap hswap
  | @respawned handle failed next e hdesired hactive hswap hrespawn =>
      rw [routesToLoad, hactive]
      cases hswap with
      | @loadFailed store e hload =>
          obtain ⟨hadded, hload⟩ := loadAdded_error hload
          have hfails := not_loadable hadded hload
          -- the second load reads the same files, and the hosts of the old set are not watched
          have hrespawned : Renewed { side with certStore := store } next host
              (Stray cfg env.files (side.addedRoutes desired) host) := by
            refine renewed_of_teardown (renewed_respawn hdesired hnodup hrespawn) ?_
            rintro entry ⟨-, route, hroute, rfl, hentry⟩ (hidle | hprev)
            · cases hactive.symm.trans hidle
            · exact ⟨hfails, route, List.mem_filter.2 ⟨hroute, decide_eq_true hprev⟩, rfl, hentry⟩
          rcases hrespawned with hgone | hnew | ⟨hwatched, hstored⟩
          · exact .inl hgone
          · exact .inr (.inl hnew)
          · refine .inr (.inr ⟨hwatched, fun entry hentry => ?_⟩)
            rcases hstored entry hentry with hold | hstray
            · exact (of_lookup_loadRoutes hload hold).imp_right fun hroute => ⟨hfails, hroute⟩
            · exact .inr hstray
      | listenerMissing _ hlistener =>
          obtain ⟨listener, hlookup, -⟩ := hattended handle hactive
          cases hlistener.symm.trans hlookup

end

/--
A reload finds a registered host's certificate at the paths that are watched.
So does a call that fails to load a certificate, for the hosts it loads the
certificates of.
-/
def KeepsPaths (cfg : CertConfig) (side : HttpsSide) : HttpsEvent → Prop
  | .reloadHost files hostname =>
      ∀ spec entry paths,
        side.certStore.reloadSpecs.lookup (toAsciiLowercase hostname) = some spec →
        CertStore.resolveSpec files spec = .ok (some entry) →
        side.certWatcher.lookup (toAsciiLowercase hostname) = some paths →
        entry.origin.watchedPaths = paths
  | .applySet env set =>
      ¬Loadable cfg env.files (side.routesToLoad set.routes) →
        ∀ route ∈ side.routesToLoad set.routes, ∀ entry paths,
          onDisk cfg env.files route = .ok (some entry) →
          side.certWatcher.lookup route.key = some paths → entry.origin.watchedPaths = paths

theorem tracked_applySet (hattended : Attended side) (htracked : side.Tracked) {set : RouteSet}
    (hkeeps : KeepsPaths cfg side (.applySet env set)) : (side.applySet cfg env set).Tracked := by
  intro host paths entry hpaths hentry
  have hreconciled : Renewed side (side.reconcileHttps cfg env set.routes) host _ :=
    renewed_reconcile hattended set.hosts_nodup (reconcile_reconcileHttps cfg env side set.routes)
  have hrenewed : Renewed side (side.applySet cfg env set) host _ := hreconciled
  rcases hrenewed with hgone | hnew | ⟨hwatched, hstored⟩
  · cases hgone.symm.trans hpaths
  · rw [hnew, hentry, Option.map_some, Option.some.injEq] at hpaths
    exact hpaths
  · have hold : side.certWatcher.lookup host = some paths := hwatched.symm.trans hpaths
    rcases hstored entry hentry with hkept | ⟨hfails, route, hroute, rfl, hload⟩
    · exact htracked host paths entry hold hkept
    · exact hkeeps hfails route hroute entry paths hload hold

theorem tracked_reloadHost (htracked : side.Tracked) (files : CertFiles) (hostname : String)
    (hkeeps : KeepsPaths cfg side (.reloadHost files hostname)) :
    (side.reloadHost files hostname).Tracked := by
  intro host paths entry hpaths hentry
  have hpaths : side.certWatcher.lookup host = some paths := hpaths
  simp only [reloadHost, CertStore.reloadHost, CertStore.finishReload] at hentry
  split at hentry
  next => exact htracked host paths entry hpaths hentry
  next spec hspec =>
    split at hentry
    next found hresolve =>
      rcases of_lookup_insert hentry with ⟨rfl, rfl⟩ | hold
      · exact hkeeps spec entry paths hspec hresolve hpaths
      · exact htracked host paths entry hpaths hold
    next => exact htracked host paths entry hpaths (of_lookup_erase hentry).2
    next => exact htracked host paths entry hpaths hentry

theorem tracked_start : Tracked start := by
  intro host paths entry hpaths
  cases hpaths

/--
Along a run of applied sets and certificate reloads, every registered host is
watched at the paths of the certificate it serves, and reloaded when one of them
changes, as long as no reload, and no load beside a route that fails, finds a
registered host's certificate at other paths.
-/
theorem tracked_throughout {events : List HttpsEvent}
    (hkeeps : Along (step cfg) (KeepsPaths cfg) start events)
    (hrun : run (step cfg) start events = some side) : side.Tracked ∧ side.ReloadsOnChange := by
  have hall := run_invariant_of_guard (step cfg)
    (P := fun side => (Registered cfg side ∧ Attended side) ∧ side.Tracked) ?_
    ⟨⟨registered_start, attended_of_idle rfl⟩, tracked_start⟩ hkeeps hrun
  · exact ⟨hall.2, reloadsOnChange_of_tracked hall.2⟩
  · rintro side event next ⟨⟨hregistered, hattended⟩, htracked⟩ hkeeps hstep
    refine ⟨⟨registered_step hregistered hstep, attended_step hregistered hattended hstep⟩, ?_⟩
    cases event with
    | applySet env set =>
        cases hstep
        exact tracked_applySet hattended htracked hkeeps
    | reloadHost files hostname =>
        cases hstep
        exact tracked_reloadHost htracked files hostname hkeeps

def coveredConfig : CertConfig :=
  { toyCertConfig with defaultCert := some "/default.pem", defaultKey := some "/default.key" }

def coveredFiles (paired malformed : List String) : CertFiles where
  isFile := fun path => paired.any (fun host =>
    path == conventionCert "/certs" host || path == conventionKey "/certs" host)
  loadPemPair := fun _ host _ _ =>
    if host ∈ malformed then .error ⟨"malformed PEM"⟩ else .ok [1]
  readDefaultCertSans := fun _ => .ok ["*.test"]

def fallenBack : List HttpsEvent :=
  [.applySet ⟨coveredFiles ["a.test"] [], fun _ => true, true⟩ oneRoute,
    .reloadHost (coveredFiles [] []) "a.test"]

def failedTwice : List HttpsEvent :=
  [.applySet ⟨coveredFiles ["a.test"] [], fun _ => false, true⟩ oneRoute,
    .applySet ⟨coveredFiles ["b.test"] ["b.test"], fun _ => true, true⟩ twoRoutes]

structure LeftBehind (side : HttpsSide) : Prop where
  watched : side.certWatcher.lookup "a.test" =
    some ["/certs/a.test/fullchain.pem", "/certs/a.test/privkey.pem"]
  serves : side.certStore.entries.lookup "a.test" =
    some ⟨[1], .default "/default.pem" "/default.key"⟩
  unaffected : side.certWatcher.affected ["/default.pem", "/default.key"] = []

theorem watched_paths_left_behind :
    (∃ side, run (step coveredConfig) start fallenBack = some side ∧ side.LeftBehind) ∧
      ∃ side, run (step coveredConfig) start failedTwice = some side ∧ side.LeftBehind :=
  ⟨⟨_, rfl, by decide, by decide, by decide⟩, ⟨_, rfl, by decide, by decide, by decide⟩⟩

def renewedInPlace : List HttpsEvent :=
  [.applySet ⟨coveredFiles ["a.test"] [], fun _ => false, true⟩ oneRoute,
    .applySet ⟨coveredFiles ["a.test", "b.test"] ["b.test"], fun _ => true, true⟩ twoRoutes,
    .applySet ⟨coveredFiles ["a.test"] [], fun _ => true, true⟩ oneRoute,
    .reloadHost (coveredFiles ["a.test"] []) "a.test"]

theorem tracked_throughout_renewal :
    ∃ side, run (step coveredConfig) start renewedInPlace = some side ∧
      side.Tracked ∧ side.ReloadsOnChange := by
  have hkeeps : Along (step coveredConfig) (KeepsPaths coveredConfig) start renewedInPlace := by
    refine along_cons _ ?_ rfl (along_cons _ ?_ rfl (along_cons _ ?_ rfl
      (along_cons _ ?_ rfl trivial)))
    · intro _ route _ entry paths _ hpaths
      cases hpaths
    · -- the certificate of the first route is where it was, the one of the second fails
      intro _ route hroute entry paths hentry hpaths
      rcases List.mem_pair.1 hroute with rfl | rfl
      · cases hentry
        cases hpaths
        rfl
      · cases hpaths
    · intro _ route hroute entry paths hentry hpaths
      obtain rfl := List.mem_singleton.1 hroute
      cases hentry
      cases hpaths
      rfl
    · intro spec entry paths hspec hresolve hpaths
      cases hspec
      cases hresolve
      cases hpaths
      rfl
  obtain ⟨side, hrun⟩ : ∃ side, run (step coveredConfig) start renewedInPlace = some side :=
    ⟨_, rfl⟩
  exact ⟨side, hrun, tracked_throughout hkeeps hrun⟩

end HttpsSide

end Yggdrasil.Proxy
