import Yggdrasil.Foundation.Run
import Yggdrasil.Proxy.HttpFrontend

/-!
# The HTTPS side of the supervisor

All routes of a node are served by one frontend.  A new route set is swapped
into the running frontend; when that fails, and when no frontend runs, the
frontend is torn down and spawned afresh.  Certificate store, certificate
watcher, redirect hosts and plaintext routes are kept in step with the routes
by these three paths only.  Here a call and a reload are one step each;
`HttpsTasks` has what comes between.
-/

namespace Yggdrasil.Proxy

open Foundation Ratatoskr

structure CertConfig where
  certDir : Path
  defaultCert : Option Path
  defaultKey : Option Path
  redirectPort : Option UInt16
  httpsListen : SocketAddr
  httpsHttp3 : Bool
  lanCidrs : IpAddr → Bool

def CertConfig.serverDefault (cfg : CertConfig) : Option (Path × Path) :=
  cfg.defaultCert.bind (fun cert => cfg.defaultKey.map (fun key => (cert, key)))

/-- What the rest of the node answers during one call. -/
structure HttpsSurroundings where
  files : CertFiles
  binds : SocketAddr → Bool
  h3Spawns : Bool

/-- The routes of an accepted rule set; no two share a hostname. -/
structure RouteSet where
  routes : List HttpRoute
  hosts_nodup : (hostsOf routes).Nodup

def httpsFrontendName : String := "__https__"

structure HttpsHandle where
  frontend : RouteTable
  h3 : Option RouteTable
  redirectHosts : List String
  redirectIp : IpAddr

structure HttpsSide where
  active : Option HttpsHandle
  prevRoutes : List HttpRoute
  redirectListeners : AList (fun _ : IpAddr => RedirectListener)
  certStore : CertStore
  certWatcher : CertWatcher
  currentRoutes : List HttpRoute

inductive HttpsError where
  | certs (e : CertError)
  | companionBind (addr : SocketAddr)
  | everyRouteCertLess
  | bind (addr : SocketAddr)
  | redirectListenerMissing (ip : IpAddr)
  deriving DecidableEq, Repr

def difference (hosts others : List String) : List String :=
  hosts.dedup.filter (fun host => host ∉ others)

def isCertLess (certLess : List String) (route : HttpRoute) : Bool :=
  certLess.any (fun host => toAsciiLowercase host == route.key)

def certLessRoutes (certLess : List String) (routes : List HttpRoute) : List HttpRoute :=
  routes.filter (isCertLess certLess)

def loadedHosts (certLess : List String) (routes : List HttpRoute) : List String :=
  hostsOf (routes.filter (fun route => !isCertLess certLess route))

def registerLoaded (store : CertStore) (hosts : List String) (watcher : CertWatcher) :
    CertWatcher :=
  hosts.foldl (fun watcher host => watcher.register host (store.watchedPathsFor host)) watcher

/-- Routes whose host has no certificate stay off the table. -/
def frontendTable (store : CertStore) (routes : List HttpRoute) : RouteTable :=
  RouteTable.build (routes.filter (fun route => store.contains route.hostname)) httpsFrontendName

def loadRoutes (cfg : CertConfig) (files : CertFiles) (routes : List HttpRoute)
    (store : CertStore) : CertStore × Except CertError (List String) :=
  loadRoutesIntoStore files httpsFrontendName routes store cfg.certDir cfg.serverDefault

namespace HttpsSide

def start : HttpsSide := ⟨none, [], ∅, .new, ∅, []⟩

def unregisterHandle (listeners : AList (fun _ : IpAddr => RedirectListener))
    (handle : HttpsHandle) : AList (fun _ : IpAddr => RedirectListener) :=
  match listeners.lookup handle.redirectIp with
  | none => listeners
  | some listener =>
      listeners.insert handle.redirectIp
        ((handle.redirectHosts.foldl RedirectListener.unregisterHost
          listener).unregisterPlaintextRoutes httpsFrontendName)

/-- Only a running frontend is cleaned up after. -/
def teardown (side : HttpsSide) : HttpsSide :=
  match side.active with
  | none => side
  | some handle =>
      { side with
        active := none
        redirectListeners := unregisterHandle side.redirectListeners handle
        certStore := (hostsOf side.prevRoutes).foldl CertStore.remove side.certStore
        certWatcher := (hostsOf side.prevRoutes).foldl CertWatcher.unregister side.certWatcher }

def addedRoutes (side : HttpsSide) (desired : List HttpRoute) : List HttpRoute :=
  desired.filter (fun route => route.key ∉ hostsOf side.prevRoutes)

def removedHosts (side : HttpsSide) (desired : List HttpRoute) : List String :=
  difference (hostsOf side.prevRoutes) (hostsOf desired)

def loadAdded (cfg : CertConfig) (files : CertFiles) (side : HttpsSide)
    (desired : List HttpRoute) : CertStore × Except CertError (List String) :=
  if side.addedRoutes desired = [] then (side.certStore, .ok [])
  else loadRoutes cfg files (side.addedRoutes desired) side.certStore

def certLessIn (store : CertStore) (desired : List HttpRoute) : List String :=
  (desired.filter (fun route => !store.contains route.hostname)).map HttpRoute.hostname

def swappedHosts (store : CertStore) (desired : List HttpRoute) : List String :=
  loadedHosts (certLessIn store desired) desired

def swappedWatcher (side : HttpsSide) (store : CertStore) (desired : List HttpRoute) :
    CertWatcher :=
  registerLoaded store (swappedHosts store desired)
    ((side.removedHosts desired).foldl CertWatcher.unregister side.certWatcher)

def swappedStore (side : HttpsSide) (store : CertStore) (desired : List HttpRoute) : CertStore :=
  (side.removedHosts desired).foldl CertStore.remove store

def swapListener (listener : RedirectListener) (old new : List String)
    (certLess : List HttpRoute) : RedirectListener :=
  let listener := (difference old new).foldl RedirectListener.unregisterHost listener
  let listener := (difference new old).foldl RedirectListener.registerHost listener
  (listener.unregisterPlaintextRoutes httpsFrontendName).registerPlaintextRoutes certLess
    httpsFrontendName

/-- Both frontends get the new table; a missing HTTP/3 endpoint stays missing. -/
def swappedHandle (handle : HttpsHandle) (table : RouteTable) (hosts : List String) :
    HttpsHandle :=
  ⟨table, handle.h3.map (fun _ => table), hosts, handle.redirectIp⟩

/-- What was loaded before an error stays in the store. -/
def tryHotSwapRoutes (cfg : CertConfig) (files : CertFiles) (side : HttpsSide)
    (handle : HttpsHandle) (desired : List HttpRoute) : HttpsSide × Except HttpsError Unit :=
  match side.loadAdded cfg files desired with
  | (store, .error e) => ({ side with certStore := store }, .error (.certs e))
  | (store, .ok _) =>
      let watcher := side.swappedWatcher store desired
      let hosts := swappedHosts store desired
      let certLess := certLessRoutes (certLessIn store desired) desired
      let store := side.swappedStore store desired
      match side.redirectListeners.lookup handle.redirectIp with
      | none =>
          ({ side with certStore := store, certWatcher := watcher },
            .error (.redirectListenerMissing handle.redirectIp))
      | some listener =>
          ({ side with
              active := some (swappedHandle handle (frontendTable store desired) hosts)
              prevRoutes := desired
              redirectListeners := side.redirectListeners.insert handle.redirectIp
                (swapListener listener handle.redirectHosts hosts certLess)
              certStore := store
              certWatcher := watcher }, .ok ())

def companion (cfg : CertConfig) (env : HttpsSurroundings) (side : HttpsSide) :
    Option RedirectListener :=
  match side.redirectListeners.lookup cfg.httpsListen.ip with
  | some listener => some listener
  | none =>
      if env.binds ⟨cfg.httpsListen.ip, cfg.redirectPort.getD 80⟩ then
        some (.spawn (some cfg.lanCidrs))
      else none

def spawnFrontend (cfg : CertConfig) (env : HttpsSurroundings) (store : CertStore)
    (routes : List HttpRoute) : Except HttpsError RouteTable :=
  if routes.filter (fun route => store.contains route.hostname) = [] then
    .error .everyRouteCertLess
  else if !env.binds cfg.httpsListen then .error (.bind cfg.httpsListen)
  else .ok (frontendTable store routes)

def claimListener (listener : RedirectListener) (hosts : List String)
    (certLess : List HttpRoute) : RedirectListener :=
  let listener := hosts.foldl RedirectListener.registerHost listener
  (listener.unregisterPlaintextRoutes httpsFrontendName).registerPlaintextRoutes certLess
    httpsFrontendName

/-- Three exits leave something behind: only the last of them cleans up, all but the plaintext
routes. -/
def spawnHttpsFrontend (cfg : CertConfig) (env : HttpsSurroundings) (side : HttpsSide)
    (desired : List HttpRoute) : HttpsSide × Except HttpsError HttpsHandle :=
  match loadRoutes cfg env.files desired side.certStore with
  | (store, .error e) => ({ side with certStore := store }, .error (.certs e))
  | (store, .ok certLess) =>
      let hosts := loadedHosts certLess desired
      let watcher := registerLoaded store hosts side.certWatcher
      match side.companion cfg env with
      | none =>
          ({ side with certStore := store, certWatcher := watcher },
            .error (.companionBind ⟨cfg.httpsListen.ip, cfg.redirectPort.getD 80⟩))
      | some listener =>
          let listener := claimListener listener hosts (certLessRoutes certLess desired)
          match spawnFrontend cfg env store desired with
          | .error e =>
              ({ side with
                  redirectListeners := side.redirectListeners.insert cfg.httpsListen.ip
                    (hosts.foldl RedirectListener.unregisterHost listener)
                  certStore := hosts.foldl CertStore.remove store
                  certWatcher := hosts.foldl CertWatcher.unregister watcher }, .error e)
          | .ok table =>
              ({ side with
                  redirectListeners :=
                    side.redirectListeners.insert cfg.httpsListen.ip listener
                  certStore := store
                  certWatcher := watcher },
                .ok ⟨table, if cfg.httpsHttp3 && env.h3Spawns then some table else none, hosts,
                  cfg.httpsListen.ip⟩)

def respawn (cfg : CertConfig) (env : HttpsSurroundings) (side : HttpsSide)
    (desired : List HttpRoute) : HttpsSide :=
  match side.teardown.spawnHttpsFrontend cfg env desired with
  | (side, .ok handle) => { side with active := some handle, prevRoutes := desired }
  | (side, .error _) => { side with prevRoutes := [] }

def reconcileHttps (cfg : CertConfig) (env : HttpsSurroundings) (side : HttpsSide)
    (desired : List HttpRoute) : HttpsSide :=
  if desired = [] then { side.teardown with prevRoutes := [] }
  else
    match side.active with
    | none => side.respawn cfg env desired
    | some handle =>
        if desired = side.prevRoutes then side
        else
          match side.tryHotSwapRoutes cfg env.files handle desired with
          | (side, .ok ()) => side
          | (side, .error _) => side.respawn cfg env desired

def collectIdle (listeners : AList (fun _ : IpAddr => RedirectListener)) :
    AList (fun _ : IpAddr => RedirectListener) :=
  eraseAll ((listeners.entries.filter (fun entry => entry.2.isEmpty)).map Sigma.fst) listeners

def applySet (cfg : CertConfig) (env : HttpsSurroundings) (side : HttpsSide) (set : RouteSet) :
    HttpsSide :=
  let side := side.reconcileHttps cfg env set.routes
  { side with
    redirectListeners := collectIdle side.redirectListeners
    currentRoutes := set.routes }

def reloadHost (side : HttpsSide) (files : CertFiles) (hostname : String) : HttpsSide :=
  { side with certStore := side.certStore.reloadHost files hostname }

end HttpsSide

inductive HttpsEvent where
  | applySet (env : HttpsSurroundings) (set : RouteSet)
  | reloadHost (files : CertFiles) (hostname : String)

def HttpsSide.step (cfg : CertConfig) (side : HttpsSide) : HttpsEvent → Option HttpsSide
  | .applySet env set => some (side.applySet cfg env set)
  | .reloadHost files hostname => some (side.reloadHost files hostname)

namespace HttpsSide

def answerTls (side : HttpsSide) (host : Option String) : Option Answer :=
  side.active.map (fun handle => serveRequest handle.frontend host)

def answerH3 (side : HttpsSide) (host : Option String) : Option Answer :=
  side.active.bind (fun handle => handle.h3.map (fun table => serveRequest table host))

def answerCompanion (side : HttpsSide) (ip peer : IpAddr) (host : Option String)
    (pathAndQuery : String) : Option Answer :=
  (side.redirectListeners.lookup ip).map (fun listener => listener.dispatch peer host pathAndQuery)

end HttpsSide

end Yggdrasil.Proxy
