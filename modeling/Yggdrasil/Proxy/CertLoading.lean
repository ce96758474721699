import Yggdrasil.Proxy.HttpsReconcile

/-!
# What loading certificates does to a host

A batch of routes that loads leaves each of them resolved: with the certificate
on disk in the store, or named as cert-less.  The loops of the reconcile that
register, unregister and remove hosts are summed up by one lookup each.
-/

namespace Yggdrasil.Proxy

open Foundation Ratatoskr

def onDisk (cfg : CertConfig) (files : CertFiles) (route : HttpRoute) :
    Except CertError (Option CertEntry) :=
  CertStore.resolveSpec files ⟨httpsFrontendName, route, cfg.certDir, cfg.serverDefault⟩

def Loadable (cfg : CertConfig) (files : CertFiles) (routes : List HttpRoute) : Prop :=
  ∀ route ∈ routes, ∃ found, onDisk cfg files route = .ok found

section

variable {files : CertFiles} {ctx : CertContext} {routes : List HttpRoute}
  {store loaded : CertStore} {certLess : List String}

theorem isCertLess_cons {first route : HttpRoute} :
    isCertLess (first.hostname :: certLess) route =
      (first.key == route.key || isCertLess certLess route) := rfl

theorem isCertLess_of_notMem {route : HttpRoute}
    (hcertLess : ∀ host ∈ certLess, toAsciiLowercase host ∈ hostsOf routes)
    (hroute : route.key ∉ hostsOf routes) : isCertLess certLess route = false := by
  simp only [isCertLess, List.any_eq_false, beq_iff_eq]
  intro host hhost hkey
  exact hroute (hkey ▸ hcertLess host hhost)

theorem lookup_of_loadEach {outcome : Except CertError (List String)} {host : String}
    (h : loadEach files ctx routes store = (loaded, outcome)) (hhost : host ∉ hostsOf routes) :
    loaded.entries.lookup host = store.entries.lookup host := by
  have hkept : (loadEach files ctx routes store).1.entries.lookup host =
      store.entries.lookup host := (lookups_loadEach_of_notMem store hhost).1
  rwa [h] at hkept

theorem loadEach_ok (hnodup : (hostsOf routes).Nodup)
    (h : loadEach files ctx routes store = (loaded, .ok certLess)) :
    (∀ host ∈ certLess, toAsciiLowercase host ∈ hostsOf routes) ∧
    ∀ route ∈ routes, ∃ found, loadRouteCert files route ctx = .ok found ∧
      isCertLess certLess route = found.isNone ∧
      loaded.entries.lookup route.key = found.or (store.entries.lookup route.key) := by
  -- later routes have other hosts, so they find and leave this one's entry as it is
  induction routes generalizing store certLess with
  | nil =>
      simp only [loadEach, Prod.mk.injEq, Except.ok.injEq] at h
      simp [← h.2]
  | cons first rest ih =>
      rw [hostsOf, List.map_cons, List.nodup_cons] at hnodup
      have hkeys : ∀ route ∈ rest, route.key ≠ first.key :=
        fun route hroute hkey => hnodup.1 (hkey ▸ List.mem_map_of_mem hroute)
      simp only [loadEach] at h
      cases hfirst : loadRouteCert files first ctx with
      | error e => simp [hfirst] at h
      | ok found =>
          cases found with
          | none =>
              cases hrest : loadEach files ctx rest store with
              | mk after outcome =>
                  cases outcome with
                  | error e => simp [hfirst, hrest, Except.map] at h
                  | ok hosts =>
                      simp only [hfirst, hrest, Except.map, Prod.mk.injEq, Except.ok.injEq] at h
                      obtain ⟨rfl, rfl⟩ := h
                      obtain ⟨hhosts, hroutes⟩ := ih hnodup.2 hrest
                      constructor
                      · simp only [List.forall_mem_cons]
                        exact ⟨List.mem_cons_self,
                          fun host hhost => List.mem_cons_of_mem _ (hhosts host hhost)⟩
                      · simp only [List.forall_mem_cons]
                        constructor
                        · refine ⟨none, hfirst, ?_, ?_⟩
                          · simp [isCertLess_cons]
                          · simp [lookup_of_loadEach hrest hnodup.1]
                        · intro route hroute
                          obtain ⟨found, hfound, hless, hlookup⟩ := hroutes route hroute
                          refine ⟨found, hfound, ?_, hlookup⟩
                          simp [isCertLess_cons, hless, (hkeys route hroute).symm]
          | some entry =>
              simp only [hfirst] at h
              obtain ⟨hhosts, hroutes⟩ := ih hnodup.2 h
              refine ⟨fun host hhost => List.mem_cons_of_mem _ (hhosts host hhost), ?_⟩
              simp only [List.forall_mem_cons]
              constructor
              · refine ⟨some entry, hfirst, isCertLess_of_notMem hhosts hnodup.1, ?_⟩
                rw [lookup_of_loadEach h hnodup.1]
                exact AList.lookup_insert _
              · intro route hroute
                obtain ⟨found, hfound, hless, hlookup⟩ := hroutes route hroute
                have hother : (store.entries.insert first.key entry).lookup route.key =
                    store.entries.lookup route.key := AList.lookup_insert_ne (hkeys route hroute)
                exact ⟨found, hfound, hless, hlookup.trans (congrArg found.or hother)⟩

theorem loadEach_ok_of_forall
    (h : ∀ route ∈ routes, ∃ found, loadRouteCert files route ctx = .ok found)
    (store : CertStore) :
    ∃ loaded certLess, loadEach files ctx routes store = (loaded, .ok certLess) := by
  induction routes generalizing store with
  | nil => exact ⟨store, [], rfl⟩
  | cons first rest ih =>
      rw [List.forall_mem_cons] at h
      obtain ⟨found, hfirst⟩ := h.1
      cases found with
      | none =>
          obtain ⟨loaded, certLess, hrest⟩ := ih h.2 store
          exact ⟨loaded, first.hostname :: certLess, by simp [loadEach, hfirst, hrest, Except.map]⟩
      | some entry =>
          obtain ⟨loaded, certLess, hrest⟩ := ih h.2
            ((store.recordReloadSpec first.hostname
              ⟨ctx.ruleName, first, ctx.serverCertDir, ctx.serverDefault⟩).insert
                first.hostname entry)
          exact ⟨loaded, certLess, by simp [loadEach, hfirst, hrest]⟩

end

section

variable {cfg : CertConfig} {files : CertFiles} {routes : List HttpRoute}
  {store loaded : CertStore} {certLess : List String}

theorem onDisk_eq {sans : Option (List String)}
    (hsans : serverDefaultSans files cfg.serverDefault = .ok sans) (route : HttpRoute) :
    onDisk cfg files route =
      loadRouteCert files route ⟨httpsFrontendName, cfg.certDir, cfg.serverDefault, sans⟩ := by
  simp only [onDisk, CertStore.resolveSpec, hsans]
  rfl

theorem loadRoutes_ok (hnodup : (hostsOf routes).Nodup)
    (h : loadRoutes cfg files routes store = (loaded, .ok certLess)) :
    ∀ route ∈ routes, ∃ found, onDisk cfg files route = .ok found ∧
      isCertLess certLess route = found.isNone ∧
      loaded.entries.lookup route.key = found.or (store.entries.lookup route.key) := by
  unfold loadRoutes loadRoutesIntoStore at h
  cases hsans : serverDefaultSans files cfg.serverDefault with
  | error e => simp [hsans] at h
  | ok sans =>
      simp only [hsans] at h
      intro route hroute
      obtain ⟨found, hfound, hrest⟩ := (loadEach_ok hnodup h).2 route hroute
      exact ⟨found, (onDisk_eq hsans route).trans hfound, hrest⟩

theorem lookup_of_loadRoutes {outcome : Except CertError (List String)} {host : String}
    (h : loadRoutes cfg files routes store = (loaded, outcome)) (hhost : host ∉ hostsOf routes) :
    loaded.entries.lookup host = store.entries.lookup host := by
  have hkept : (loadRoutes cfg files routes store).1.entries.lookup host =
      store.entries.lookup host := (lookups_load_of_notMem store hhost).1
  rwa [h] at hkept

theorem stored_of_mem_loadedHosts (hnodup : (hostsOf routes).Nodup)
    (h : loadRoutes cfg files routes store = (loaded, .ok certLess)) :
    ∀ host ∈ loadedHosts certLess routes, host ∈ loaded.entries := by
  -- a host that is not named cert-less was resolved, and is in the store since
  intro host hhost
  obtain ⟨route, hroute, rfl⟩ := List.mem_map.1 hhost
  rw [List.mem_filter] at hroute
  obtain ⟨found, -, hless, hlookup⟩ := loadRoutes_ok hnodup h route hroute.1
  cases found with
  | none => simp [hless] at hroute
  | some entry => exact mem_iff_lookup.2 ⟨entry, hlookup⟩

theorem loadRoutes_ok_of_loadable (hroutes : routes ≠ []) (h : Loadable cfg files routes)
    (store : CertStore) :
    ∃ loaded certLess, loadRoutes cfg files routes store = (loaded, .ok certLess) := by
  unfold loadRoutes loadRoutesIntoStore
  cases hsans : serverDefaultSans files cfg.serverDefault with
  | error e =>
      obtain ⟨route, hroute⟩ := List.exists_mem_of_ne_nil routes hroutes
      obtain ⟨found, hfound⟩ := h route hroute
      simp only [onDisk, CertStore.resolveSpec, hsans] at hfound
      cases hfound
  | ok sans =>
      refine loadEach_ok_of_forall (fun route hroute => ?_) store
      rw [← onDisk_eq hsans route]
      exact h route hroute

end

/-! ## What the loops do to a host -/

section

variable {store : CertStore} {watcher : CertWatcher} {hosts : List String} {routes : List HttpRoute}

theorem lookup_register {first : String} {entry : CertEntry}
    (hlower : toAsciiLowercase first = first) (hentry : store.entries.lookup first = some entry)
    (host : String) :
    (watcher.register first (store.watchedPathsFor first)).lookup host =
      if host = first then some entry.origin.watchedPaths else watcher.lookup host := by
  have hpaths : store.watchedPathsFor first = entry.origin.watchedPaths := by
    rw [CertStore.watchedPathsFor, hlower, hentry]
    rfl
  have hsome : entry.origin.watchedPaths ≠ [] := by
    cases entry.origin <;> simp [CertOrigin.watchedPaths]
  rw [CertWatcher.register, hpaths, if_neg hsome, hlower]
  split
  · next heq => rw [heq, AList.lookup_insert]
  · next hne => exact AList.lookup_insert_ne hne

theorem lookup_registerLoaded (hlower : ∀ host ∈ hosts, toAsciiLowercase host = host)
    (hstored : ∀ host ∈ hosts, host ∈ store.entries) (host : String) :
    (registerLoaded store hosts watcher).lookup host =
      if host ∈ hosts then (store.entries.lookup host).map (fun entry => entry.origin.watchedPaths)
      else watcher.lookup host := by
  unfold registerLoaded
  induction hosts generalizing watcher with
  | nil => simp
  | cons first rest ih =>
      rw [List.forall_mem_cons] at hlower hstored
      obtain ⟨entry, hentry⟩ := mem_iff_lookup.1 hstored.1
      rw [List.foldl_cons, ih hlower.2 hstored.2, lookup_register hlower.1 hentry]
      by_cases hrest : host ∈ rest
      · simp [hrest]
      · by_cases hfirst : host = first
        · subst hfirst
          simp [hrest, hentry]
        · simp [hrest, hfirst]

theorem lookup_foldl_unregister (hsub : hosts ⊆ hostsOf routes) (host : String) :
    (hosts.foldl CertWatcher.unregister watcher).lookup host =
      if host ∈ hosts then none else watcher.lookup host := by
  have herase : hosts.foldl CertWatcher.unregister watcher =
      eraseAll (hosts.map toAsciiLowercase) watcher :=
    eraseAll_map toAsciiLowercase hosts watcher
  rw [herase, lookup_eraseAll, map_toAsciiLowercase_of_subset hsub]

theorem lookup_foldl_remove (hsub : hosts ⊆ hostsOf routes) (host : String) :
    (hosts.foldl CertStore.remove store).entries.lookup host =
      if host ∈ hosts then none else store.entries.lookup host := by
  rw [foldl_remove, lookup_eraseAll, map_toAsciiLowercase_of_subset hsub]

theorem contains_eq (store : CertStore) (route : HttpRoute) :
    store.contains route.hostname = (store.entries.lookup route.key).isSome := rfl

theorem isCertLess_certLessIn {route : HttpRoute} (hroute : route ∈ routes) :
    isCertLess (HttpsSide.certLessIn store routes) route =
      !store.contains route.hostname := by
  cases hcontains : store.contains route.hostname with
  | true =>
      simp only [isCertLess, HttpsSide.certLessIn, Bool.not_true, List.any_eq_false, List.mem_map,
        List.mem_filter, beq_iff_eq]
      rintro host ⟨other, ⟨-, hother⟩, rfl⟩ hkey
      have hsame : other.key = route.key := hkey
      rw [contains_eq, hsame, ← contains_eq, hcontains] at hother
      cases hother
  | false =>
      simp only [isCertLess, HttpsSide.certLessIn, Bool.not_false, List.any_eq_true, List.mem_map,
        List.mem_filter, beq_iff_eq]
      exact ⟨route.hostname, ⟨route, ⟨hroute, by simp [hcontains]⟩, rfl⟩, rfl⟩

theorem loadedHosts_certLessIn :
    loadedHosts (HttpsSide.certLessIn store routes) routes =
      hostsOf (routes.filter (fun route => store.contains route.hostname)) := by
  unfold loadedHosts
  congr 1
  apply List.filter_congr
  intro route hroute
  rw [isCertLess_certLessIn hroute, Bool.not_not]

theorem certLessRoutes_certLessIn :
    certLessRoutes (HttpsSide.certLessIn store routes) routes =
      routes.filter (fun route => !store.contains route.hostname) :=
  List.filter_congr fun _ hroute => isCertLess_certLessIn hroute

end

def conventionCert (serverCertDir : Path) (hostname : String) : Path :=
  serverCertDir ++ "/" ++ hostname ++ "/fullchain.pem"

def conventionKey (serverCertDir : Path) (hostname : String) : Path :=
  serverCertDir ++ "/" ++ hostname ++ "/privkey.pem"

def conventionEntry (files : CertFiles) (ruleName : String) (serverCertDir : Path)
    (route : HttpRoute) : Option CertEntry :=
  let cert := conventionCert serverCertDir route.hostname
  let key := conventionKey serverCertDir route.hostname
  if files.isFile cert && files.isFile key then
    (files.loadPemPair ruleName route.hostname cert key).toOption.map
      (fun pair => ⟨pair, .convention cert key⟩)
  else none

section

variable {files : CertFiles} {ctx : CertContext} {before after : List HttpRoute}
  {route : HttpRoute} {entry : CertEntry}

theorem loadRouteCert_of_convention
    (h : conventionEntry files ctx.ruleName ctx.serverCertDir route = some entry) :
    loadRouteCert files route ctx = .ok (some entry) := by
  simp only [conventionEntry, Option.ite_none_right_eq_some] at h
  obtain ⟨hfiles, h⟩ := h
  obtain ⟨pair, hpair, rfl⟩ := Option.map_eq_some_iff.1 h
  have hload : files.loadPemPair ctx.ruleName route.hostname
      (conventionCert ctx.serverCertDir route.hostname)
      (conventionKey ctx.serverCertDir route.hostname) = .ok pair := by
    cases hload : files.loadPemPair ctx.ruleName route.hostname
        (conventionCert ctx.serverCertDir route.hostname)
        (conventionKey ctx.serverCertDir route.hostname) with
    | error e => simp [hload, Except.toOption] at hpair
    | ok found => simpa [hload, Except.toOption] using hpair
  unfold conventionCert conventionKey at hfiles hload ⊢
  simp only [loadRouteCert, if_pos hfiles, hload]
  rfl

def Resolved (files : CertFiles) (ctx : CertContext) (routes : List HttpRoute) : Prop :=
  ∀ route ∈ routes, ∃ found, loadRouteCert files route ctx = .ok found

theorem lookup_loadEach_of_resolved (hbefore : Resolved files ctx before)
    (hroute : loadRouteCert files route ctx = .ok (some entry))
    (hafter : route.key ∉ hostsOf after) (store : CertStore) :
    (loadEach files ctx (before ++ route :: after) store).1.entries.lookup route.key =
      some entry := by
  induction before generalizing store with
  | nil =>
      simp only [List.nil_append, loadEach, hroute]
      rw [(lookups_loadEach_of_notMem _ hafter).1]
      exact AList.lookup_insert _
  | cons first rest ih =>
      have hrest : Resolved files ctx rest :=
        fun route hmem => hbefore route (List.mem_cons_of_mem first hmem)
      obtain ⟨found, hfirst⟩ := hbefore first List.mem_cons_self
      simp only [List.cons_append, loadEach, hfirst]
      cases found with
      | none => exact ih hrest store
      | some found => exact ih hrest _

theorem loadEach_of_not_resolved (hbefore : ¬Resolved files ctx before) (rest : List HttpRoute)
    (store : CertStore) :
    (loadEach files ctx (before ++ rest) store).1 = (loadEach files ctx before store).1 := by
  induction before generalizing store with
  | nil => exact absurd (fun _ hmem => by simp at hmem) hbefore
  | cons first before ih =>
      simp only [List.cons_append, loadEach]
      cases hfirst : loadRouteCert files first ctx with
      | error e => rfl
      | ok found =>
          have htail : ¬Resolved files ctx before := fun htail =>
            hbefore (List.forall_mem_cons.2 ⟨⟨found, hfirst⟩, htail⟩)
          cases found with
          | none => exact ih htail store
          | some found => exact ih htail _

theorem of_lookup_loadEach {routes : List HttpRoute} {store : CertStore} {host : String}
    (h : (loadEach files ctx routes store).1.entries.lookup host = some entry) :
    store.entries.lookup host = some entry ∨
      ∃ route ∈ routes, route.key = host ∧ loadRouteCert files route ctx = .ok (some entry) := by
  induction routes generalizing store with
  | nil => exact .inl h
  | cons first rest ih =>
      simp only [List.mem_cons, exists_eq_or_imp]
      simp only [loadEach] at h
      cases hfirst : loadRouteCert files first ctx with
      | error e =>
          rw [hfirst] at h
          exact .inl h
      | ok found =>
          rw [hfirst] at h
          cases found with
          | none => exact (ih h).imp_right .inr
          | some found =>
              rcases ih h with hold | hnew
              · rcases of_lookup_insert hold with ⟨rfl, rfl⟩ | hold
                · exact .inr (.inl ⟨rfl, rfl⟩)
                · exact .inl hold
              · exact .inr (.inr hnew)

end

section

variable {files : CertFiles} {ruleName : String} {dir : Path} {serverDefault : Option (Path × Path)}
  {before after : List HttpRoute} {route : HttpRoute} {entry : CertEntry}

theorem load_installs_convention_iff
    (hentry : conventionEntry files ruleName dir route = some entry)
    (hnodup : (hostsOf (before ++ route :: after)).Nodup) :
    (∀ store, (loadRoutesIntoStore files ruleName (before ++ route :: after) store dir
        serverDefault).1.entries.lookup route.key = some entry) ↔
      ∃ sans, serverDefaultSans files serverDefault = .ok sans ∧
        Resolved files ⟨ruleName, dir, serverDefault, sans⟩ before := by
  rw [hostsOf, List.map_append, List.map_cons, List.nodup_middle, List.nodup_cons,
    List.mem_append, not_or] at hnodup
  unfold loadRoutesIntoStore
  cases hsans : serverDefaultSans files serverDefault with
  | error e =>
      simp only [reduceCtorEq, false_and, exists_false, iff_false]
      intro hall
      cases hall .new
  | ok sans =>
      simp only [Except.ok.injEq, exists_eq_left']
      constructor
      · intro hall
        by_contra hbefore
        have hnew := hall .new
        rw [loadEach_of_not_resolved hbefore, (lookups_loadEach_of_notMem _ hnodup.1.1).1] at hnew
        cases hnew
      · intro hbefore store
        exact lookup_loadEach_of_resolved hbefore (loadRouteCert_of_convention hentry)
          hnodup.1.2 store

theorem reload_installs_convention_iff {spec : ReloadSpec}
    (hentry : conventionEntry files spec.ruleName spec.serverCertDir spec.route = some entry)
    (hostname : String) :
    (∀ store : CertStore, store.reloadSpecs.lookup (toAsciiLowercase hostname) = some spec →
        (store.reloadHost files hostname).entries.lookup (toAsciiLowercase hostname) =
          some entry) ↔
      ∃ sans, serverDefaultSans files spec.serverDefault = .ok sans := by
  constructor
  · intro hall
    let store : CertStore := ⟨∅, (∅ : HostTable ReloadSpec).insert (toAsciiLowercase hostname) spec⟩
    have hspec : store.reloadSpecs.lookup (toAsciiLowercase hostname) = some spec :=
      AList.lookup_insert _
    have hstore := hall store hspec
    cases hsans : serverDefaultSans files spec.serverDefault with
    | error e =>
        have hresolve : CertStore.resolveSpec files spec = .error e := by
          rw [CertStore.resolveSpec, hsans]
          rfl
        simp only [CertStore.reloadHost, CertStore.finishReload, hspec, hresolve] at hstore
        cases hstore
    | ok sans => exact ⟨sans, rfl⟩
  · rintro ⟨sans, hsans⟩ store hspec
    have hresolve : CertStore.resolveSpec files spec = .ok (some entry) := by
      rw [CertStore.resolveSpec, hsans]
      exact loadRouteCert_of_convention hentry
    simp only [CertStore.reloadHost, CertStore.finishReload, hspec, hresolve]
    exact AList.lookup_insert _

end

/--
A convention pair that exists and parses is installed by a reload exactly when
the names of the default certificate, if one is configured, can be read; and by
the load of a batch exactly when also every route before it is resolved.
Nothing else about the default certificate matters.
-/
theorem convention_pair_installed_iff (files : CertFiles) (entry : CertEntry) :
    (∀ ruleName dir serverDefault before route after,
      conventionEntry files ruleName dir route = some entry →
      (hostsOf (before ++ route :: after)).Nodup →
      ((∀ store, (loadRoutesIntoStore files ruleName (before ++ route :: after) store dir
          serverDefault).1.entries.lookup route.key = some entry) ↔
        ∃ sans, serverDefaultSans files serverDefault = .ok sans ∧
          Resolved files ⟨ruleName, dir, serverDefault, sans⟩ before)) ∧
    ∀ (spec : ReloadSpec) (hostname : String),
      conventionEntry files spec.ruleName spec.serverCertDir spec.route = some entry →
      ((∀ store : CertStore, store.reloadSpecs.lookup (toAsciiLowercase hostname) = some spec →
          (store.reloadHost files hostname).entries.lookup (toAsciiLowercase hostname) =
            some entry) ↔
        ∃ sans, serverDefaultSans files spec.serverDefault = .ok sans) :=
  ⟨fun _ _ _ _ _ _ hentry hnodup => load_installs_convention_iff hentry hnodup,
    fun _ hostname hentry => reload_installs_convention_iff hentry hostname⟩

def toyDefault : Option (Path × Path) := some ("/default.pem", "/default.key")

def conventionFiles (sans : Except CertError (List String)) : CertFiles where
  isFile := fun path => path ∈ ["/certs/a.test/fullchain.pem", "/certs/a.test/privkey.pem"]
  loadPemPair := fun _ _ cert _ =>
    if cert = "/certs/a.test/fullchain.pem" then .ok [1] else .error ⟨"malformed PEM"⟩
  readDefaultCertSans := fun _ => sans

def toyConvention : CertEntry :=
  ⟨[1], .convention "/certs/a.test/fullchain.pem" "/certs/a.test/privkey.pem"⟩

def olderStore : CertStore :=
  (CertStore.new.recordReloadSpec "a.test"
    ⟨httpsFrontendName, toyRoute "a.test", "/certs", toyDefault⟩).insert "a.test"
      { toyConvention with key := [0] }

/-- A default certificate that cannot be read keeps the new pair of the host out. -/
theorem unreadable_default_blocks_convention :
    let files := conventionFiles (.error ⟨"no such file"⟩)
    conventionEntry files httpsFrontendName "/certs" (toyRoute "a.test") = some toyConvention ∧
      (loadRoutesIntoStore files httpsFrontendName [toyRoute "a.test"] .new "/certs"
        toyDefault).1.lookup "a.test" = none ∧
      (olderStore.reloadHost files "a.test").lookup "a.test" = some [0] := by
  decide

/-- The default certificate covers no host and its pair is malformed. -/
theorem convention_pair_installed_beside_malformed_default :
    let files := conventionFiles (.ok [])
    (loadRoutesIntoStore files httpsFrontendName [toyRoute "b.test", toyRoute "a.test"] .new
        "/certs" toyDefault).1.entries.lookup "a.test" = some toyConvention ∧
      (olderStore.reloadHost files "a.test").entries.lookup "a.test" = some toyConvention := by
  intro files
  have hinstalled := convention_pair_installed_iff files toyConvention
  have hbefore : Resolved files ⟨httpsFrontendName, "/certs", toyDefault, some []⟩
      [toyRoute "b.test"] := by
    intro route hroute
    rw [List.mem_singleton.1 hroute]
    exact ⟨none, by decide⟩
  constructor
  · exact (hinstalled.1 httpsFrontendName "/certs" toyDefault [toyRoute "b.test"]
      (toyRoute "a.test") [] (by decide) (by decide)).2 ⟨some [], rfl, hbefore⟩ .new
  · exact (hinstalled.2 ⟨httpsFrontendName, toyRoute "a.test", "/certs", toyDefault⟩ "a.test"
      (by decide)).2 ⟨some [], rfl⟩ olderStore (by decide)

/-! ## A swap -/

namespace HttpsSide

variable {cfg : CertConfig} {files : CertFiles} {side : HttpsSide} {desired : List HttpRoute}
  {store : CertStore} {route : HttpRoute} {host : String}

theorem notMem_addedRoutes (hhost : host ∉ hostsOf desired ∨ host ∈ hostsOf side.prevRoutes) :
    host ∉ hostsOf (side.addedRoutes desired) := by
  intro hadded
  obtain ⟨route, hroute, rfl⟩ := List.mem_map.1 hadded
  rw [addedRoutes, List.mem_filter, decide_eq_true_eq] at hroute
  rcases hhost with hgone | hold
  · exact hgone (List.mem_map_of_mem hroute.1)
  · exact hroute.2 hold

theorem lookup_of_loadAdded {outcome : Except CertError (List String)}
    (hload : side.loadAdded cfg files desired = (store, outcome))
    (hhost : host ∉ hostsOf (side.addedRoutes desired)) :
    store.entries.lookup host = side.certStore.entries.lookup host := by
  unfold loadAdded at hload
  split at hload
  · rw [(Prod.mk.inj hload).1]
  · exact lookup_of_loadRoutes hload hhost

theorem notMem_removedHosts (hhost : host ∈ hostsOf desired) : host ∉ side.removedHosts desired :=
  fun hremoved => (mem_difference.1 hremoved).2 hhost

theorem lower_loadedHosts {certLess : List String} :
    ∀ host ∈ loadedHosts certLess desired, toAsciiLowercase host = host :=
  fun _ hhost => lower_of_mem_hostsOf (loadedHosts_subset hhost)

theorem stored_of_mem_swappedHosts {host : String} (hhost : host ∈ swappedHosts store desired) :
    host ∈ store.entries := by
  rw [swappedHosts, loadedHosts_certLessIn] at hhost
  obtain ⟨route, hroute, rfl⟩ := List.mem_map.1 hhost
  exact contains_iff.1 (List.mem_filter.1 hroute).2

theorem lookup_swappedWatcher (host : String) :
    (side.swappedWatcher store desired).lookup host =
      if host ∈ swappedHosts store desired then
        (store.entries.lookup host).map (fun entry => entry.origin.watchedPaths)
      else if host ∈ side.removedHosts desired then none else side.certWatcher.lookup host := by
  have hlower : ∀ host ∈ swappedHosts store desired, toAsciiLowercase host = host :=
    lower_loadedHosts
  rw [swappedWatcher,
    lookup_registerLoaded hlower (fun _ hhost => stored_of_mem_swappedHosts hhost),
    lookup_foldl_unregister removedHosts_subset]

theorem lookup_teardown {handle : HttpsHandle} (hactive : side.active = some handle)
    (host : String) :
    side.teardown.certStore.entries.lookup host =
        (if host ∈ hostsOf side.prevRoutes then none else side.certStore.entries.lookup host) ∧
      side.teardown.certWatcher.lookup host =
        if host ∈ hostsOf side.prevRoutes then none else side.certWatcher.lookup host := by
  simp only [teardown, hactive]
  exact ⟨lookup_foldl_remove (List.Subset.refl _) host,
    lookup_foldl_unregister (List.Subset.refl _) host⟩

theorem lookup_swappedStore (hroute : route ∈ desired) :
    (side.swappedStore store desired).entries.lookup route.key =
      store.entries.lookup route.key := by
  rw [swappedStore, lookup_foldl_remove removedHosts_subset,
    if_neg (notMem_removedHosts (List.mem_map_of_mem hroute))]

end HttpsSide

end Yggdrasil.Proxy
