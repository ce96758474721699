import Yggdrasil.Proxy.CertLoading

/-!
# A certificate that does not load

A batch of certificates loads as a whole or fails at the first one that does
not parse.  While the new hosts load, a swap never reads the certificates of
the others again.  Once one of them fails, the fallback tears the frontend down
and fails on the same certificate.
-/

namespace Yggdrasil.Proxy.HttpsSide

open Foundation Ratatoskr

def Serves (side : HttpsSide) (route : HttpRoute) (key : Bytes) : Prop :=
  ∃ handle, side.active = some handle ∧
    handle.frontend.lookup route.key = some (RouteEntry.of httpsFrontendName route) ∧
    side.certStore.lookup route.hostname = some key

def ownCert (cfg : CertConfig) (files : CertFiles) (route : HttpRoute) :
    Except CertError (Option CertEntry) :=
  loadRouteCert files route ⟨httpsFrontendName, cfg.certDir, cfg.serverDefault,
    (serverDefaultSans files cfg.serverDefault).toOption.join⟩

structure Survivor (cfg : CertConfig) (files : CertFiles) (side : HttpsSide) (set : RouteSet)
    (route : HttpRoute) (key : Bytes) : Prop where
  old : route ∈ side.prevRoutes
  new : route ∈ set.routes
  served : side.Serves route key
  loads : ∃ entry, ownCert cfg files route = .ok (some entry)

variable {cfg : CertConfig} {env : HttpsSurroundings} {side next : HttpsSide}
  {desired : List HttpRoute} {route : HttpRoute} {key : Bytes}

theorem contains_of_lookup {store : CertStore} (h : store.lookup route.hostname = some key) :
    store.contains route.hostname = true := by
  obtain ⟨entry, hentry, -⟩ := Option.map_eq_some_iff.1 h
  rw [CertStore.contains, hentry]
  rfl

theorem serves_swap {files : CertFiles} {handle : HttpsHandle} (hnodup : (hostsOf desired).Nodup)
    (hold : route ∈ side.prevRoutes) (hnew : route ∈ desired)
    (hkey : side.certStore.lookup route.hostname = some key)
    (hswap : Swap cfg files side handle desired (next, .ok ())) : next.Serves route key := by
  cases hswap with
  | @swapped store certLess listener hload hlistener =>
      have hentry : store.entries.lookup route.key = side.certStore.entries.lookup route.key := by
        apply lookup_of_loadAdded hload
        exact notMem_addedRoutes (.inr (List.mem_map_of_mem hold))
      have hkept : (side.swappedStore store desired).lookup route.hostname = some key := by
        rw [← hkey]
        exact congrArg _ ((lookup_swappedStore hnew).trans hentry)
      exact ⟨_, rfl, lookup_frontendTable hnodup hnew (contains_of_lookup hkept), hkept⟩

theorem active_respawn_of_error {e : CertError} {store : CertStore}
    (herror : (loadRoutes cfg env.files desired store).2 = .error e)
    (hrespawn : Respawn cfg env side desired next) : next.active = none := by
  have hsame : (loadRoutes cfg env.files desired side.teardown.certStore).2 = .error e :=
    (loadRoutesIntoStore_outcome _ store).trans herror
  cases hrespawn with
  | loadFailed => exact side.active_teardown
  | companionFailed => exact side.active_teardown
  | frontendFailed => exact side.active_teardown
  | spawned hload => simp [hload] at hsame

theorem serves_applySet_of_loadAdded (hattended : Attended side)
    {set : RouteSet} {certLess : List String}
    (hadded : (side.loadAdded cfg env.files set.routes).2 = .ok certLess)
    (hsurvivor : Survivor cfg env.files side set route key) :
    (side.applySet cfg env set).Serves route key := by
  suffices hreconciled : (side.reconcileHttps cfg env set.routes).Serves route key from hreconciled
  obtain ⟨handle, hactive, htable, hkey⟩ := hsurvivor.served
  have hreconcile := reconcile_reconcileHttps cfg env side set.routes
  generalize side.reconcileHttps cfg env set.routes = next at hreconcile
  cases hreconcile with
  | emptied hnil =>
      have hnew := hsurvivor.new
      rw [hnil] at hnew
      cases hnew
  | spawned _ hidle =>
      cases hidle.symm.trans hactive
  | unchanged => exact hsurvivor.served
  | swapped _ _ hswap =>
      exact serves_swap set.hosts_nodup hsurvivor.old hsurvivor.new hkey hswap
  | respawned _ hrunning hswap =>
      cases hswap with
      | loadFailed hload => simp [hload] at hadded
      | listenerMissing hload hlistener =>
          obtain ⟨listener, hlookup, -⟩ := hattended _ hrunning
          cases hlistener.symm.trans hlookup

theorem active_applySet_of_error {set : RouteSet} {e e' : CertError}
    (herror : (loadRoutes cfg env.files set.routes side.certStore).2 = .error e)
    (hadded : (side.loadAdded cfg env.files set.routes).2 = .error e') :
    (side.applySet cfg env set).active = none := by
  suffices hreconciled : (side.reconcileHttps cfg env set.routes).active = none from hreconciled
  have hreconcile := reconcile_reconcileHttps cfg env side set.routes
  generalize side.reconcileHttps cfg env set.routes = next at hreconcile
  cases hreconcile with
  | emptied => exact side.active_teardown
  | spawned _ _ hrespawn => exact active_respawn_of_error herror hrespawn
  | unchanged _ _ hsame =>
      have hnone : side.addedRoutes set.routes = [] := by
        rw [hsame, addedRoutes, List.filter_eq_nil_iff]
        intro route hroute
        simp [hostsOf, List.mem_map_of_mem hroute]
      simp [loadAdded, hnone] at hadded
  | swapped _ _ hswap =>
      cases hswap with
      | swapped hload => simp [hload] at hadded
  | respawned _ _ _ hrespawn => exact active_respawn_of_error herror hrespawn

/--
In every reachable state, a set some certificate of which does not load leaves
all survivors served, with the certificates they had, exactly when the
certificates of its new hosts load, or there is no survivor.
-/
theorem survivors_served_iff {events : List HttpsEvent}
    (hrun : run (step cfg) start events = some side) {set : RouteSet} {e : CertError}
    (herror : (loadRoutes cfg env.files set.routes side.certStore).2 = .error e) :
    (∀ route key, Survivor cfg env.files side set route key →
      (side.applySet cfg env set).Serves route key) ↔
    ((∃ certLess, (side.loadAdded cfg env.files set.routes).2 = .ok certLess) ∨
      ∀ route key, ¬Survivor cfg env.files side set route key) := by
  have hinv : Registered cfg side ∧ Attended side := running_of_run hrun
  constructor
  · intro hserved
    cases hadded : (side.loadAdded cfg env.files set.routes).2 with
    | ok certLess => exact .inl ⟨certLess, rfl⟩
    | error e' =>
        right
        intro route key hsurvivor
        obtain ⟨handle, hactive, -⟩ := hserved route key hsurvivor
        rw [active_applySet_of_error herror hadded] at hactive
        cases hactive
  · rintro (⟨certLess, hadded⟩ | hnone) route key hsurvivor
    · exact serves_applySet_of_loadAdded hinv.2 hadded hsurvivor
    · exact absurd hsurvivor (hnone route key)

/-- A new host's malformed certificate takes the route down that was served all along. -/
theorem malformed_new_host_stops_frontend :
    ∃ side, run (step toyCertConfig) start [.applySet (toySurroundings true []) oneRoute] =
        some side ∧
      (loadRoutes toyCertConfig (toySurroundings true ["b.test"]).files twoRoutes.routes
        side.certStore).2 = .error ⟨"malformed PEM"⟩ ∧
      Survivor toyCertConfig (toySurroundings true ["b.test"]).files side twoRoutes
        (toyRoute "a.test") [1] ∧
      ¬(side.applySet toyCertConfig (toySurroundings true ["b.test"]) twoRoutes).Serves
        (toyRoute "a.test") [1] := by
  refine ⟨_, rfl, by decide, ⟨by decide, by decide, ⟨_, rfl, by decide, by decide⟩, ⟨_, rfl⟩⟩, ?_⟩
  rintro ⟨handle, hactive, -⟩
  cases hactive

theorem survivors_served_beside_malformed :
    ∃ side, run (step toyCertConfig) start [.applySet (toySurroundings true []) twoRoutes] =
        some side ∧
      (side.applySet toyCertConfig (toySurroundings true ["b.test"]) threeRoutes).Serves
        (toyRoute "a.test") [1] := by
  obtain ⟨side, hrun, herror, hadded, hsurvivor⟩ :
      ∃ side, run (step toyCertConfig) start [.applySet (toySurroundings true []) twoRoutes] =
          some side ∧
        (loadRoutes toyCertConfig (toySurroundings true ["b.test"]).files threeRoutes.routes
          side.certStore).2 = .error ⟨"malformed PEM"⟩ ∧
        (side.loadAdded toyCertConfig (toySurroundings true ["b.test"]).files
          threeRoutes.routes).2 = .ok [] ∧
        Survivor toyCertConfig (toySurroundings true ["b.test"]).files side threeRoutes
          (toyRoute "a.test") [1] :=
    ⟨_, rfl, by decide, by decide, by decide, by decide, ⟨_, rfl, by decide, by decide⟩, ⟨_, rfl⟩⟩
  exact ⟨side, hrun, (survivors_served_iff hrun herror).2 (.inl ⟨[], hadded⟩) _ _ hsurvivor⟩

end Yggdrasil.Proxy.HttpsSide
