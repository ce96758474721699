import Yggdrasil.Proxy.HttpsReconcile

/-!
# The reconcile step by step

A call takes certificates out, swaps tables and drains a frontend one after the
other, and the reload of a certificate reads its spec some time before it writes
the store.  Here each of these is a step of its own, so that reloads may come
between any two of them; a call that nothing comes between ends as `applySet`
does.
-/

namespace Yggdrasil.Proxy

open Foundation Ratatoskr

/-- Where the supervisor's task is.  The lists are the hosts whose certificates it still has to
remove; a table that is built is yet to be stored. -/
inductive ReconcilePhase where
  | idle
  | swapping (env : HttpsSurroundings) (set : RouteSet) (hosts : List String)
      (certLess : List HttpRoute) (pending : List String)
  | updating (set : RouteSet) (hosts : List String) (h3 : Bool) (built : Option RouteTable)
  | retiring (respawn : Option HttpsSurroundings) (set : RouteSet) (pending : List String)
  | spawning (env : HttpsSurroundings) (set : RouteSet)
  | claimed (env : HttpsSurroundings) (set : RouteSet) (hosts : List String)
  | binding (env : HttpsSurroundings) (set : RouteSet) (hosts : List String) (built : RouteTable)
  | failed (set : RouteSet) (pending : List String)
  | endpoint (env : HttpsSurroundings) (set : RouteSet) (built : Option RouteTable)
  | finishing (set : RouteSet)

/-- A frontend that serves while it is not the active one is being drained, or has not been handed
over yet. -/
structure HttpsTasks where
  side : HttpsSide
  apart : Option HttpsHandle
  phase : ReconcilePhase
  reloads : List (String × ReloadSpec)

inductive HttpsTaskEvent where
  | applySet (env : HttpsSurroundings) (set : RouteSet)
  | advance
  | readSpec (hostname : String)
  | finishReload (files : CertFiles) (reload : Nat)

namespace HttpsTasks

def ofSide (side : HttpsSide) : HttpsTasks := ⟨side, none, .idle, []⟩

def start : HttpsTasks := ofSide .start

def goto (tasks : HttpsTasks) (side : HttpsSide) (phase : ReconcilePhase) : HttpsTasks :=
  { tasks with side := side, phase := phase }

/-- Nothing here reads the watcher, so its hosts go at once. -/
def retire (tasks : HttpsTasks) (side : HttpsSide) (respawn : Option HttpsSurroundings)
    (set : RouteSet) : HttpsTasks :=
  match side.active with
  | none => tasks.goto side (.retiring respawn set [])
  | some handle =>
      { tasks with
        side :=
          { side with
            active := none
            redirectListeners := HttpsSide.unregisterHandle side.redirectListeners handle
            certWatcher :=
              (hostsOf side.prevRoutes).foldl CertWatcher.unregister side.certWatcher }
        apart := some handle
        phase := .retiring respawn set (hostsOf side.prevRoutes) }

def applySet (cfg : CertConfig) (tasks : HttpsTasks) (env : HttpsSurroundings) (set : RouteSet) :
    HttpsTasks :=
  let side := tasks.side
  if set.routes = [] then tasks.retire side none set
  else
    match side.active with
    | none => tasks.goto side (.spawning env set)
    | some _ =>
        if set.routes = side.prevRoutes then tasks.goto side (.finishing set)
        else
          match side.loadAdded cfg env.files set.routes with
          | (store, .error _) => tasks.retire { side with certStore := store } (some env) set
          | (store, .ok _) =>
              tasks.goto
                { side with
                  certStore := store
                  certWatcher := side.swappedWatcher store set.routes }
                (.swapping env set (HttpsSide.swappedHosts store set.routes)
                  (certLessRoutes (HttpsSide.certLessIn store set.routes) set.routes)
                  (side.removedHosts set.routes))

def dropCert (tasks : HttpsTasks) (host : String) : ReconcilePhase → HttpsTasks :=
  tasks.goto { tasks.side with certStore := tasks.side.certStore.remove host }

/-- The frontend could not be spawned: its claims go, then its certificates. -/
def unclaim (cfg : CertConfig) (tasks : HttpsTasks) (set : RouteSet) (hosts : List String) :
    HttpsTasks :=
  let listeners := tasks.side.redirectListeners
  tasks.goto
    { tasks.side with
      redirectListeners :=
        ((listeners.lookup cfg.httpsListen.ip).map (fun listener =>
          listeners.insert cfg.httpsListen.ip
            (hosts.foldl RedirectListener.unregisterHost listener))).getD listeners
      certWatcher := hosts.foldl CertWatcher.unregister tasks.side.certWatcher }
    (.failed set hosts)

def handOver (tasks : HttpsTasks) (set : RouteSet) (h3 : Option RouteTable) : HttpsTasks :=
  { tasks with
    side :=
      { tasks.side with
        active := tasks.apart.map (fun handle => { handle with h3 := h3 })
        prevRoutes := set.routes }
    apart := none
    phase := .finishing set }

def giveUp (tasks : HttpsTasks) (side : HttpsSide) (set : RouteSet) : HttpsTasks :=
  tasks.goto { side with prevRoutes := [] } (.finishing set)

def spawn (cfg : CertConfig) (tasks : HttpsTasks) (env : HttpsSurroundings) (set : RouteSet) :
    HttpsTasks :=
  match loadRoutes cfg env.files set.routes tasks.side.certStore with
  | (store, .error _) => tasks.giveUp { tasks.side with certStore := store } set
  | (store, .ok certLess) =>
      let hosts := loadedHosts certLess set.routes
      let side :=
        { tasks.side with
          certStore := store
          certWatcher := registerLoaded store hosts tasks.side.certWatcher }
      match tasks.side.companion cfg env with
      | none => tasks.giveUp side set
      | some listener =>
          tasks.goto
            { side with
              redirectListeners := side.redirectListeners.insert cfg.httpsListen.ip
                (HttpsSide.claimListener listener hosts (certLessRoutes certLess set.routes)) }
            (.claimed env set hosts)

/-- The table is built from the store as it is then; no table is built where every route is
without a certificate. -/
def buildTable (tasks : HttpsTasks) (set : RouteSet) : Option RouteTable :=
  if set.routes.filter (fun route => tasks.side.certStore.contains route.hostname) = [] then none
  else some (frontendTable tasks.side.certStore set.routes)

def advance (cfg : CertConfig) (tasks : HttpsTasks) : Option HttpsTasks :=
  let side := tasks.side
  match tasks.phase with
  | .idle => none
  | .swapping env set hosts certLess (host :: pending) =>
      some (tasks.dropCert host (.swapping env set hosts certLess pending))
  | .swapping env set hosts certLess [] =>
      match side.active.bind (fun handle => (side.redirectListeners.lookup handle.redirectIp).map
          (fun listener => (handle, listener))) with
      | none => some (tasks.retire side (some env) set)
      | some (handle, listener) =>
          some (tasks.goto
            { side with
              redirectListeners := side.redirectListeners.insert handle.redirectIp
                (HttpsSide.swapListener listener handle.redirectHosts hosts certLess) }
            (.updating set hosts false none))
  | .updating set hosts h3 none =>
      some (tasks.goto side
        (.updating set hosts h3 (some (frontendTable side.certStore set.routes))))
  | .updating set hosts false (some table) =>
      some (tasks.goto
        { side with active := side.active.map (fun handle => { handle with frontend := table }) }
        (.updating set hosts true none))
  | .updating set hosts true (some table) =>
      some (tasks.goto
        { side with
          active := side.active.map (fun handle =>
            { handle with h3 := handle.h3.map (fun _ => table), redirectHosts := hosts })
          prevRoutes := set.routes }
        (.finishing set))
  | .retiring respawn set (host :: pending) =>
      some (tasks.dropCert host (.retiring respawn set pending))
  | .retiring (some env) set [] => some { tasks with apart := none, phase := .spawning env set }
  | .retiring none set [] => some (giveUp { tasks with apart := none } side set)
  | .spawning env set => some (tasks.spawn cfg env set)
  | .claimed env set hosts =>
      match tasks.buildTable set with
      | none => some (tasks.unclaim cfg set hosts)
      | some table => some (tasks.goto side (.binding env set hosts table))
  | .binding env set hosts table =>
      if env.binds cfg.httpsListen then
        some { tasks with
          apart := some ⟨table, none, hosts, cfg.httpsListen.ip⟩
          phase := .endpoint env set none }
      else some (tasks.unclaim cfg set hosts)
  | .failed set (host :: pending) => some (tasks.dropCert host (.failed set pending))
  | .failed set [] => some (tasks.giveUp side set)
  | .endpoint env set none =>
      match if cfg.httpsHttp3 then tasks.buildTable set else none with
      | none => some (tasks.handOver set none)
      | some table => some (tasks.goto side (.endpoint env set (some table)))
  | .endpoint env set (some table) =>
      some (tasks.handOver set (if env.h3Spawns then some table else none))
  | .finishing set =>
      some (tasks.goto
        { side with
          redirectListeners := HttpsSide.collectIdle side.redirectListeners
          currentRoutes := set.routes }
        .idle)

def step (cfg : CertConfig) (tasks : HttpsTasks) : HttpsTaskEvent → Option HttpsTasks
  | .applySet env set =>
      match tasks.phase with
      | .idle => some (tasks.applySet cfg env set)
      | _ => none
  | .advance => tasks.advance cfg
  | .readSpec hostname =>
      match tasks.side.certStore.reloadSpecs.lookup (toAsciiLowercase hostname) with
      | none => some tasks
      | some spec => some { tasks with reloads := (hostname, spec) :: tasks.reloads }
  | .finishReload files reload =>
      tasks.reloads[reload]?.map (fun (hostname, spec) =>
        { tasks with
          side :=
            { tasks.side with
              certStore := tasks.side.certStore.finishReload files hostname spec }
          reloads := tasks.reloads.eraseIdx reload })

/-! ## A call on its own -/

section

variable {cfg : CertConfig} {env : HttpsSurroundings} {set : RouteSet} {side : HttpsSide}
  {tasks : HttpsTasks}

abbrev Advances (cfg : CertConfig) : HttpsTasks → HttpsTasks → Prop :=
  Relation.ReflTransGen (fun tasks next => tasks.advance cfg = some next)

theorem advances_dropCerts (phase : List String → ReconcilePhase)
    (hphase : ∀ tasks host pending,
      advance cfg (goto tasks tasks.side (phase (host :: pending))) =
        some (tasks.dropCert host (phase pending))) (pending : List String) (tasks : HttpsTasks) :
    Advances cfg (tasks.goto tasks.side (phase pending))
      (tasks.goto
        { tasks.side with certStore := pending.foldl CertStore.remove tasks.side.certStore }
        (phase [])) := by
  induction pending generalizing tasks with
  | nil => exact .refl
  | cons host pending ih =>
      exact .head (hphase tasks host pending) (ih (tasks.dropCert host (phase pending)))

theorem advances_retire (respawn : Option HttpsSurroundings) :
    ∃ apart, Advances cfg (tasks.retire side respawn set)
      ⟨side.teardown, apart, .retiring respawn set [], tasks.reloads⟩ := by
  unfold retire HttpsSide.teardown
  cases side.active with
  | none => exact ⟨tasks.apart, .refl⟩
  | some handle =>
      refine ⟨some handle, ?_⟩
      exact advances_dropCerts (.retiring respawn set)
        (fun _ _ _ => rfl) (hostsOf side.prevRoutes) ⟨_, _, .idle, _⟩

theorem teardown_of_idle (h : side.active = none) : side.teardown = side := by
  rw [HttpsSide.teardown, h]

theorem advances_unclaim (set : RouteSet) (hosts : List String) (tasks : HttpsTasks) :
    Advances cfg (tasks.unclaim cfg set hosts)
      (tasks.giveUp
        { (tasks.unclaim cfg set hosts).side with
          certStore := hosts.foldl CertStore.remove tasks.side.certStore } set) :=
  (advances_dropCerts (.failed set) (fun _ _ _ => rfl) hosts (tasks.unclaim cfg set hosts)).tail rfl

theorem advances_spawning (hidle : side.active = none) (reloads : List (String × ReloadSpec)) :
    Advances cfg ⟨side, none, .spawning env set, reloads⟩
      ⟨side.respawn cfg env set.routes, none, .finishing set, reloads⟩ := by
  refine .head rfl ?_
  simp only [HttpsSide.respawn, teardown_of_idle hidle, HttpsSide.spawnHttpsFrontend, spawn]
  cases loadRoutes cfg env.files set.routes side.certStore with
  | mk store outcome =>
      cases outcome with
      | error e => exact .refl
      | ok certLess =>
          cases side.companion cfg env with
          | none => exact .refl
          | some listener =>
              simp only [HttpsSide.spawnFrontend]
              by_cases hcertified : set.routes.filter (fun route =>
                  store.contains route.hostname) = []
              · simp only [if_pos hcertified]
                refine .head (by
                  simp only [advance, goto, buildTable, hcertified, ↓reduceIte]
                  rfl) ?_
                convert advances_unclaim set _ _ using 1
                simp [giveUp, unclaim, goto]
              · simp only [if_neg hcertified]
                refine .head (by
                  simp only [advance, goto, buildTable, hcertified, ↓reduceIte]
                  rfl) ?_
                cases hbinds : env.binds cfg.httpsListen <;>
                  refine .head (by simp only [advance, hbinds]; rfl) ?_
                · convert advances_unclaim set _ _ using 1
                  simp [giveUp, unclaim, goto]
                · cases hhttp3 : cfg.httpsHttp3 <;>
                    refine .head (by
                      simp only [advance, goto, buildTable, hcertified, hhttp3, ↓reduceIte]
                      rfl) ?_
                  · exact .refl
                  · exact .head rfl .refl

theorem advances_respawn (side : HttpsSide) (tasks : HttpsTasks) :
    Advances cfg (tasks.retire side (some env) set)
      ⟨side.respawn cfg env set.routes, none, .finishing set, tasks.reloads⟩ := by
  obtain ⟨apart, hretired⟩ := advances_retire (some env)
  have hspawned : Advances cfg ⟨_, none, .spawning env set, tasks.reloads⟩ _ :=
    advances_spawning side.active_teardown tasks.reloads
  rw [HttpsSide.respawn, teardown_of_idle side.active_teardown] at hspawned
  exact hretired.trans (.head rfl hspawned)

theorem advances_applySet (reloads : List (String × ReloadSpec)) :
    Advances cfg (applySet cfg ⟨side, none, .idle, reloads⟩ env set)
      ⟨side.applySet cfg env set, none, .idle, reloads⟩ := by
  suffices h : Advances cfg (applySet cfg ⟨side, none, .idle, reloads⟩ env set)
      ⟨side.reconcileHttps cfg env set.routes, none, .finishing set, reloads⟩ from
    h.tail rfl
  unfold applySet HttpsSide.reconcileHttps HttpsSide.tryHotSwapRoutes
  by_cases hempty : set.routes = []
  · simp only [if_pos hempty]
    obtain ⟨apart, hretired⟩ := advances_retire none
    exact hretired.tail rfl
  · simp only [if_neg hempty]
    cases hactive : side.active with
    | none => exact advances_spawning hactive reloads
    | some handle =>
        by_cases hsame : set.routes = side.prevRoutes
        · simp only [if_pos hsame]
          exact .refl
        · simp only [if_neg hsame]
          cases side.loadAdded cfg env.files set.routes with
          | mk store outcome =>
              cases outcome with
              | error e => exact advances_respawn _ _
              | ok certLess =>
                  refine (advances_dropCerts (.swapping env set _ _) (fun _ _ _ => rfl)
                    (side.removedHosts set.routes) ⟨_, none, .idle, reloads⟩).trans ?_
                  cases hlistener : side.redirectListeners.lookup handle.redirectIp with
                  | none =>
                      refine .head (by
                        simp only [advance, goto, hlistener, Option.bind_some, Option.map_none]
                        rfl) ?_
                      exact advances_respawn _ _
                  | some listener =>
                      refine .head (by
                        simp only [advance, goto, hlistener, Option.bind_some, Option.map_some]
                        rfl) ?_
                      -- both tables, each built and stored
                      exact .head rfl (.head rfl (.head rfl (.head rfl .refl)))

end

end HttpsTasks

end Yggdrasil.Proxy
