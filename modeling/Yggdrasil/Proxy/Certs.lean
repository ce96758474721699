import Yggdrasil.Foundation.Codec
import Yggdrasil.Foundation.Keyed
import Yggdrasil.Ratatoskr.Validation

/-!
# Certificates of the HTTPS side

Each route takes its certificate from the directory of its hostname, else from
the server's default certificate where that covers the hostname; a route with
neither is cert-less.  The store maps hostnames to loaded certificates and
remembers how to load each of them again.  What the PEM files hold is a
parameter of every call that reads them.
-/

namespace Yggdrasil.Proxy

open Foundation Ratatoskr

abbrev Path := String

structure CertError where
  detail : String
  deriving DecidableEq, Repr

/-- The file system and the PEM parsers. -/
structure CertFiles where
  isFile : Path → Bool
  /-- Rule, route, certificate and key. -/
  loadPemPair : String → String → Path → Path → Except CertError Bytes
  readDefaultCertSans : Path → Except CertError (List String)

inductive CertOrigin where
  | convention (cert key : Path)
  | default (cert key : Path)
  deriving DecidableEq, Repr

def CertOrigin.watchedPaths : CertOrigin → List Path
  | convention cert key => [cert, key]
  | default cert key => [cert, key]

structure CertEntry where
  key : Bytes
  origin : CertOrigin
  deriving DecidableEq, Repr

structure ReloadSpec where
  ruleName : String
  route : HttpRoute
  serverCertDir : Path
  serverDefault : Option (Path × Path)
  deriving DecidableEq, Repr

structure CertContext where
  ruleName : String
  serverCertDir : Path
  serverDefault : Option (Path × Path)
  serverDefaultSans : Option (List String)

def sanCovers (san host : String) : Bool :=
  san == host ||
    match san.toList with
    | '*' :: '.' :: rest =>
        !rest.contains '*' &&
          (match Text.splitOnce '.' host.toList with
          | some (leftmost, hostRest) => leftmost ≠ [] && hostRest == rest
          | none => false)
    | _ => false

def anySanCovers (sans : List String) (hostname : String) : Bool :=
  sans.any (fun san => sanCovers san (toAsciiLowercase hostname))

def loadRouteCert (files : CertFiles) (route : HttpRoute) (ctx : CertContext) :
    Except CertError (Option CertEntry) :=
  let convCert := ctx.serverCertDir ++ "/" ++ route.hostname ++ "/fullchain.pem"
  let convKey := ctx.serverCertDir ++ "/" ++ route.hostname ++ "/privkey.pem"
  if files.isFile convCert && files.isFile convKey then do
    let key ← files.loadPemPair ctx.ruleName route.hostname convCert convKey
    .ok (some ⟨key, .convention convCert convKey⟩)
  else
    match ctx.serverDefault with
    | none => .ok none
    | some (cert, key) =>
        if (ctx.serverDefaultSans.map (fun sans => anySanCovers sans route.hostname)).getD false then
          do
            let pair ← files.loadPemPair ctx.ruleName route.hostname cert key
            .ok (some ⟨pair, .default cert key⟩)
        else .ok none

def serverDefaultSans (files : CertFiles) (serverDefault : Option (Path × Path)) :
    Except CertError (Option (List String)) :=
  match serverDefault with
  | none => .ok none
  | some (cert, _) => (files.readDefaultCertSans cert).map some

abbrev HostTable (β : Type) := AList (fun _ : String => β)

structure CertStore where
  entries : HostTable CertEntry
  reloadSpecs : HostTable ReloadSpec

namespace CertStore

def new : CertStore := ⟨∅, ∅⟩

def insert (store : CertStore) (hostname : String) (entry : CertEntry) : CertStore :=
  { store with entries := store.entries.insert (toAsciiLowercase hostname) entry }

def recordReloadSpec (store : CertStore) (hostname : String) (spec : ReloadSpec) : CertStore :=
  { store with reloadSpecs := store.reloadSpecs.insert (toAsciiLowercase hostname) spec }

def remove (store : CertStore) (hostname : String) : CertStore :=
  ⟨store.entries.erase (toAsciiLowercase hostname),
    store.reloadSpecs.erase (toAsciiLowercase hostname)⟩

def contains (store : CertStore) (hostname : String) : Bool :=
  (store.entries.lookup (toAsciiLowercase hostname)).isSome

def lookup (store : CertStore) (hostname : String) : Option Bytes :=
  (store.entries.lookup (toAsciiLowercase hostname)).map CertEntry.key

def watchedPathsFor (store : CertStore) (hostname : String) : List Path :=
  ((store.entries.lookup (toAsciiLowercase hostname)).map
    (fun entry => entry.origin.watchedPaths)).getD []

def resolveSpec (files : CertFiles) (spec : ReloadSpec) : Except CertError (Option CertEntry) := do
  let sans ← Proxy.serverDefaultSans files spec.serverDefault
  loadRouteCert files spec.route
    ⟨spec.ruleName, spec.serverCertDir, spec.serverDefault, sans⟩

/-- A source that is gone takes the certificate with it; an error keeps it. -/
def finishReload (store : CertStore) (files : CertFiles) (hostname : String) (spec : ReloadSpec) :
    CertStore :=
  match resolveSpec files spec with
  | .ok (some entry) => store.insert hostname entry
  | .ok none => { store with entries := store.entries.erase (toAsciiLowercase hostname) }
  | .error _ => store

def reloadHost (store : CertStore) (files : CertFiles) (hostname : String) : CertStore :=
  match store.reloadSpecs.lookup (toAsciiLowercase hostname) with
  | none => store
  | some spec => store.finishReload files hostname spec

end CertStore

def loadEach (files : CertFiles) (ctx : CertContext) :
    List HttpRoute → CertStore → CertStore × Except CertError (List String)
  | [], store => (store, .ok [])
  | route :: routes, store =>
      match loadRouteCert files route ctx with
      | .error e => (store, .error e)
      | .ok none =>
          let (store, certLess) := loadEach files ctx routes store
          (store, certLess.map (fun hosts => route.hostname :: hosts))
      | .ok (some entry) =>
          loadEach files ctx routes
            ((store.recordReloadSpec route.hostname
              ⟨ctx.ruleName, route, ctx.serverCertDir, ctx.serverDefault⟩).insert
                route.hostname entry)

def loadRoutesIntoStore (files : CertFiles) (ruleName : String) (routes : List HttpRoute)
    (store : CertStore) (serverCertDir : Path) (serverDefault : Option (Path × Path)) :
    CertStore × Except CertError (List String) :=
  match serverDefaultSans files serverDefault with
  | .error e => (store, .error e)
  | .ok sans => loadEach files ⟨ruleName, serverCertDir, serverDefault, sans⟩ routes store

/-- The paths each host depends on; the directory watches behind them are left out. -/
abbrev CertWatcher := HostTable (List Path)

namespace CertWatcher

def register (watcher : CertWatcher) (hostname : String) (paths : List Path) : CertWatcher :=
  if paths = [] then watcher else watcher.insert (toAsciiLowercase hostname) paths

def unregister (watcher : CertWatcher) (hostname : String) : CertWatcher :=
  watcher.erase (toAsciiLowercase hostname)

end CertWatcher

theorem toNat_lowered : ∀ n < 91, 65 ≤ n → (Char.ofNat (n + 32)).toNat = n + 32 := by
  decide

theorem asciiLower_idem (c : Char) : Text.asciiLower (Text.asciiLower c) = Text.asciiLower c := by
  unfold Text.asciiLower
  split
  · rename_i h
    have hlow : 65 ≤ c.toNat := h.1
    have hhigh : c.toNat ≤ 90 := h.2
    have hvalue := toNat_lowered c.toNat (by omega) hlow
    rw [if_neg]
    rintro ⟨-, hupper⟩
    have hupper' : (Char.ofNat (c.toNat + 32)).toNat ≤ 90 := hupper
    omega
  · rfl

@[simp] theorem toAsciiLowercase_idem (text : String) :
    toAsciiLowercase (toAsciiLowercase text) = toAsciiLowercase text := by
  simp [toAsciiLowercase, Text.toAsciiLowercase, Function.comp_def, asciiLower_idem]

@[simp] theorem toAsciiLowercase_key (route : HttpRoute) :
    toAsciiLowercase route.key = route.key :=
  toAsciiLowercase_idem route.hostname

def hostsOf (routes : List HttpRoute) : List String := routes.map HttpRoute.key

theorem map_toAsciiLowercase_of_subset {hosts : List String} {routes : List HttpRoute}
    (h : hosts ⊆ hostsOf routes) : hosts.map toAsciiLowercase = hosts := by
  refine (List.map_congr_left ?_).trans (List.map_id hosts)
  intro host hhost
  obtain ⟨route, -, rfl⟩ := List.mem_map.1 (h hhost)
  exact toAsciiLowercase_key route

section

variable {files : CertFiles} {ctx : CertContext} {routes : List HttpRoute}

theorem loadEach_outcome (store other : CertStore) :
    (loadEach files ctx routes store).2 = (loadEach files ctx routes other).2 := by
  induction routes generalizing store other with
  | nil => rfl
  | cons route routes ih =>
      simp only [loadEach]
      cases loadRouteCert files route ctx with
      | error e => rfl
      | ok found =>
          cases found with
          | none => simp only [ih store other]
          | some entry => exact ih _ _

theorem lookups_loadEach_of_notMem (store : CertStore) {host : String}
    (hhost : host ∉ hostsOf routes) :
    (loadEach files ctx routes store).1.entries.lookup host = store.entries.lookup host ∧
      (loadEach files ctx routes store).1.reloadSpecs.lookup host =
        store.reloadSpecs.lookup host := by
  induction routes generalizing store with
  | nil => exact ⟨rfl, rfl⟩
  | cons route routes ih =>
      rw [hostsOf, List.map_cons, List.mem_cons, not_or] at hhost
      simp only [loadEach]
      cases loadRouteCert files route ctx with
      | error e => exact ⟨rfl, rfl⟩
      | ok found =>
          cases found with
          | none => exact ih store hhost.2
          | some entry =>
              obtain ⟨hentries, hspecs⟩ := ih ((store.recordReloadSpec route.hostname
                ⟨ctx.ruleName, route, ctx.serverCertDir, ctx.serverDefault⟩).insert
                  route.hostname entry) hhost.2
              exact ⟨hentries.trans (AList.lookup_insert_ne hhost.1),
                hspecs.trans (AList.lookup_insert_ne hhost.1)⟩

end

section

variable {files : CertFiles} {ruleName : String} {routes : List HttpRoute} {dir : Path}
  {serverDefault : Option (Path × Path)}

theorem loadRoutesIntoStore_outcome (store other : CertStore) :
    (loadRoutesIntoStore files ruleName routes store dir serverDefault).2 =
      (loadRoutesIntoStore files ruleName routes other dir serverDefault).2 := by
  unfold loadRoutesIntoStore
  split
  · rfl
  · exact loadEach_outcome store other

theorem lookups_load_of_notMem (store : CertStore) {host : String}
    (hhost : host ∉ hostsOf routes) :
    (loadRoutesIntoStore files ruleName routes store dir serverDefault).1.entries.lookup host =
        store.entries.lookup host ∧
      (loadRoutesIntoStore files ruleName routes store dir serverDefault).1.reloadSpecs.lookup
        host = store.reloadSpecs.lookup host := by
  unfold loadRoutesIntoStore
  split
  · exact ⟨rfl, rfl⟩
  · exact lookups_loadEach_of_notMem store hhost

end

def CertStore.Mentions (store : CertStore) (host : String) : Prop :=
  host ∈ store.entries ∨ host ∈ store.reloadSpecs

section

variable {store : CertStore} {host : String}

variable {files : CertFiles} {hosts : List String} {hostname : String}

theorem mentions_load_of_notMem {ruleName : String} {routes : List HttpRoute} {dir : Path}
    {serverDefault : Option (Path × Path)} (hhost : host ∉ hostsOf routes) :
    (loadRoutesIntoStore files ruleName routes store dir serverDefault).1.Mentions host ↔
      store.Mentions host := by
  simp only [CertStore.Mentions, mem_iff_lookup, (lookups_load_of_notMem store hhost).1,
    (lookups_load_of_notMem store hhost).2]

theorem foldl_remove (store : CertStore) (hosts : List String) :
    hosts.foldl CertStore.remove store =
      ⟨eraseAll (hosts.map toAsciiLowercase) store.entries,
        eraseAll (hosts.map toAsciiLowercase) store.reloadSpecs⟩ := by
  induction hosts generalizing store with
  | nil => rfl
  | cons first rest ih => exact ih (store.remove first)

theorem mentions_foldl_remove :
    (hosts.foldl CertStore.remove store).Mentions host ↔
      store.Mentions host ∧ host ∉ hosts.map toAsciiLowercase := by
  rw [foldl_remove]
  simp only [CertStore.Mentions, mem_eraseAll]
  tauto

theorem mentions_reloadHost
    (h : (store.reloadHost files hostname).Mentions host) : store.Mentions host := by
  unfold CertStore.reloadHost at h
  cases hspec : store.reloadSpecs.lookup (toAsciiLowercase hostname) with
  | none => simpa only [hspec] using h
  | some spec =>
      simp only [hspec, CertStore.finishReload] at h
      split at h
      · rcases h with hentry | hspecs
        · rcases (AList.mem_insert _).1 hentry with rfl | hold
          · exact .inr (mem_iff_lookup.2 ⟨spec, hspec⟩)
          · exact .inl hold
        · exact .inr hspecs
      · rcases h with hentry | hspecs
        · exact .inl (AList.mem_erase.1 hentry).2
        · exact .inr hspecs
      · exact h

theorem mem_finishReload {spec : ReloadSpec} (hhost : host ∈ store.entries)
    (h : CertStore.resolveSpec files spec = .ok none → host ≠ toAsciiLowercase hostname) :
    host ∈ (store.finishReload files hostname spec).entries := by
  unfold CertStore.finishReload
  split
  · exact (AList.mem_insert _).2 (.inr hhost)
  · rename_i hresolve
    exact AList.mem_erase.2 ⟨h hresolve, hhost⟩
  · exact hhost

theorem mem_foldl_register_of_notMem {paths : String → List Path} {watcher : CertWatcher}
    (hhost : host ∉ hosts.map toAsciiLowercase) :
    host ∈ hosts.foldl (fun watcher host => watcher.register host (paths host)) watcher ↔
      host ∈ watcher := by
  induction hosts generalizing watcher with
  | nil => rfl
  | cons first rest ih =>
      rw [List.map_cons, List.mem_cons, not_or] at hhost
      refine (ih hhost.2).trans ?_
      simp only [CertWatcher.register]
      split
      · rfl
      · rw [AList.mem_insert]
        exact or_iff_right hhost.1

theorem mem_foldl_unregister {watcher : CertWatcher} :
    host ∈ hosts.foldl CertWatcher.unregister watcher ↔
      host ∈ watcher ∧ host ∉ hosts.map toAsciiLowercase := by
  rw [← mem_eraseAll, ← eraseAll_map toAsciiLowercase hosts watcher]
  rfl

end

end Yggdrasil.Proxy
