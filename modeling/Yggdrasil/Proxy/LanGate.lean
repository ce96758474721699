import Yggdrasil.Proxy.CertLoading
import Yggdrasil.Proxy.HttpsTasks

/-!
# Hosts without a certificate

A route without a certificate is reachable on the companion listener only, and
there from the LAN ranges only.  Every path that builds a route table leaves
such hosts off it.  A reload that drops a certificate leaves the tables as they
are, a hot swap drops the certificates of removed hosts before it swaps the
tables, and a frontend is drained after its certificates are gone; requests are
routed by their own host.
-/

namespace Yggdrasil.Proxy

open Foundation Ratatoskr

namespace HttpsSide

def Routed (side : HttpsSide) (host : String) : Prop :=
  ∃ handle, side.active = some handle ∧
    (host ∈ handle.frontend ∨ ∃ table, handle.h3 = some table ∧ host ∈ table)

def Covered (side : HttpsSide) : Prop :=
  ∀ host, side.Routed host → host ∈ side.certStore.entries

inductive Forwards (side : HttpsSide) (peer : IpAddr) (key : String) : Prop where
  | tls {host : Option String} {target : String}
      (h : side.answerTls host = some (.forward key target)) : Forwards side peer key
  | h3 {host : Option String} {target : String}
      (h : side.answerH3 host = some (.forward key target)) : Forwards side peer key
  | companion {ip : IpAddr} {host : Option String} {path target : String}
      (h : side.answerCompanion ip peer host path = some (.forward key target)) :
      Forwards side peer key

/-- From outside the LAN ranges only hosts with a certificate are reached. -/
def Gated (cfg : CertConfig) (side : HttpsSide) : Prop :=
  ∀ peer, cfg.lanCidrs peer = false → ∀ key, Forwards side peer key → key ∈ side.certStore.entries

/-- Every companion listener guards its plaintext routes by the LAN ranges. -/
def Fenced (cfg : CertConfig) (listeners : AList (fun _ : IpAddr => RedirectListener)) : Prop :=
  ∀ ip listener, listeners.lookup ip = some listener → listener.lanCidrs = some cfg.lanCidrs

variable {cfg : CertConfig} {side : HttpsSide}
  {listeners : AList (fun _ : IpAddr => RedirectListener)} {listener : RedirectListener}
  {ip : IpAddr}

theorem routed_of_answerTls {host : Option String} {key target : String}
    (h : side.answerTls host = some (.forward key target)) : side.Routed key := by
  obtain ⟨handle, hactive, hserve⟩ := Option.map_eq_some_iff.1 h
  exact ⟨handle, hactive, .inl (mem_of_serveRequest_forward hserve)⟩

theorem gated_of_covered (hfenced : Fenced cfg side.redirectListeners)
    (hcovered : side.Covered) : side.Gated cfg := by
  intro peer hpeer key hforwards
  cases hforwards with
  | tls hanswer => exact hcovered key (routed_of_answerTls hanswer)
  | h3 hanswer =>
      obtain ⟨handle, hactive, hserve⟩ := Option.bind_eq_some_iff.1 hanswer
      obtain ⟨table, htable, hserve⟩ := Option.map_eq_some_iff.1 hserve
      exact hcovered key
        ⟨handle, hactive, .inr ⟨table, htable, mem_of_serveRequest_forward hserve⟩⟩
  | companion hanswer =>
      obtain ⟨listener, hlookup, hdispatch⟩ := Option.map_eq_some_iff.1 hanswer
      have hlan : listener.lanAllows peer = false := by
        simp [RedirectListener.lanAllows, hfenced _ listener hlookup, hpeer]
      exact absurd hdispatch (dispatch_ne_forward hlan _ _ _ _)

theorem fenced_insert (h : Fenced cfg listeners) (hlan : listener.lanCidrs = some cfg.lanCidrs)
    (ip : IpAddr) : Fenced cfg (listeners.insert ip listener) := by
  intro other found hfound
  rcases of_lookup_insert hfound with ⟨-, rfl⟩ | hold
  · exact hlan
  · exact h other found hold

theorem fenced_unregisterHandle (h : Fenced cfg listeners) (handle : HttpsHandle) :
    Fenced cfg (unregisterHandle listeners handle) := by
  unfold unregisterHandle
  split
  · exact h
  · rename_i listener hlistener
    refine fenced_insert h ?_ _
    simp only [foldl_unregisterHost, RedirectListener.unregisterPlaintextRoutes]
    exact h _ listener hlistener

theorem lan_companion (h : Fenced cfg side.redirectListeners) {env : HttpsSurroundings}
    (hcompanion : side.companion cfg env = some listener) :
    listener.lanCidrs = some cfg.lanCidrs := by
  unfold companion at hcompanion
  split at hcompanion
  · rename_i found hfound
    exact Option.some.inj hcompanion ▸ h _ found hfound
  · split at hcompanion
    · cases hcompanion
      rfl
    · cases hcompanion

theorem mem_loadEach {files : CertFiles} {ctx : CertContext} {routes : List HttpRoute}
    {store : CertStore} {host : String} (hhost : host ∈ store.entries) :
    host ∈ (loadEach files ctx routes store).1.entries := by
  induction routes generalizing store with
  | nil => exact hhost
  | cons route routes ih =>
      simp only [loadEach]
      split
      · exact hhost
      · exact ih hhost
      · exact ih ((AList.mem_insert _).2 (.inr hhost))

theorem mem_loadAdded {files : CertFiles} {routes : List HttpRoute} {store : CertStore}
    {outcome : Except CertError (List String)}
    (hload : side.loadAdded cfg files routes = (store, outcome)) {host : String}
    (hhost : host ∈ side.certStore.entries) : host ∈ store.entries := by
  have hkept : host ∈ (side.loadAdded cfg files routes).1.entries := by
    unfold loadAdded loadRoutes loadRoutesIntoStore
    split
    · exact hhost
    · split
      · exact hhost
      · exact mem_loadEach hhost
  rwa [hload] at hkept

theorem loadAdded_of_loadable {files : CertFiles} {routes : List HttpRoute}
    (h : Loadable cfg files (side.addedRoutes routes)) :
    ∃ store certLess, side.loadAdded cfg files routes = (store, .ok certLess) := by
  unfold loadAdded
  split
  · exact ⟨_, _, rfl⟩
  · rename_i hadded
    exact loadRoutes_ok_of_loadable hadded h _

end HttpsSide

namespace HttpsTasks

open HttpsSide

def view (tasks : HttpsTasks) : HttpsSide :=
  { tasks.side with active := tasks.side.active.or tasks.apart }

def built : ReconcilePhase → Option RouteTable
  | .updating _ _ _ table => table
  | .binding _ _ _ table => some table
  | .endpoint _ _ table => table
  | _ => none

/-- The host is in a table that is served, or in one that is about to be. -/
def Tabled (tasks : HttpsTasks) (host : String) : Prop :=
  tasks.view.Routed host ∨ ∃ table, built tasks.phase = some table ∧ host ∈ table

def Accompanied (side : HttpsSide) : Prop :=
  ∃ handle listener, side.active = some handle ∧
    side.redirectListeners.lookup handle.redirectIp = some listener

/-- What the task may rely on where it is. -/
def Placed (tasks : HttpsTasks) : Prop :=
  match tasks.phase with
  | .idle | .finishing _ | .updating _ _ _ _ => tasks.apart = none
  | .swapping _ _ _ _ pending =>
      tasks.apart = none ∧ (∀ host ∈ pending, ¬tasks.view.Routed (toAsciiLowercase host)) ∧
        ((∃ host, tasks.view.Routed host) → Accompanied tasks.side)
  | .retiring _ _ _ => tasks.side.active = none ∧ ∀ host, ¬tasks.view.Routed host
  | .endpoint _ _ _ => tasks.side.active = none
  | _ => tasks.side.active = none ∧ tasks.apart = none

structure Guarded (cfg : CertConfig) (tasks : HttpsTasks) : Prop where
  fenced : Fenced cfg tasks.side.redirectListeners
  covered : ∀ host, tasks.Tabled host → host ∈ tasks.side.certStore.entries
  placed : tasks.Placed

/--
A set that is applied while hosts are routed keeps these hosts, and is the one
in place or loads the certificates it adds and finds the companion listener.
No reload drops the certificate of a host in a table.
-/
def KeepsRouted (cfg : CertConfig) (tasks : HttpsTasks) : HttpsTaskEvent → Prop
  | .applySet env set =>
      ∀ host, tasks.view.Routed host → host ∈ hostsOf set.routes ∧
        (set.routes = tasks.side.prevRoutes ∨
          Loadable cfg env.files (tasks.side.addedRoutes set.routes) ∧ Accompanied tasks.side)
  | .finishReload files reload =>
      ∀ hostname spec, tasks.reloads[reload]? = some (hostname, spec) →
        CertStore.resolveSpec files spec = .ok none → ¬tasks.Tabled (toAsciiLowercase hostname)
  | _ => True

variable {cfg : CertConfig} {tasks next : HttpsTasks} {side : HttpsSide} {set : RouteSet}

theorem Guarded.routed (h : Guarded cfg tasks) : tasks.view.Covered :=
  fun host hrouted => h.covered host (.inl hrouted)

theorem not_routed (hactive : tasks.side.active = none) (hapart : tasks.apart = none)
    (host : String) : ¬tasks.view.Routed host := by
  rintro ⟨handle, hhandle, -⟩
  simp [view, hactive, hapart] at hhandle

theorem routed_view (hapart : tasks.apart = none) {host : String} :
    tasks.view.Routed host ↔ tasks.side.Routed host := by
  simp [Routed, view, hapart]

/-- Where no table is at hand, only the tables that are served matter. -/
theorem guarded_of_unbuilt (hfenced : Fenced cfg tasks.side.redirectListeners)
    (hcovered : tasks.view.Covered) (hbuilt : built tasks.phase = none)
    (hplaced : tasks.Placed) : Guarded cfg tasks := by
  refine ⟨hfenced, ?_, hplaced⟩
  rintro host (hrouted | ⟨table, htable, -⟩)
  · exact hcovered host hrouted
  · cases hbuilt.symm.trans htable

theorem guarded_of_unrouted (hfenced : Fenced cfg tasks.side.redirectListeners)
    (hnone : ∀ host, ¬tasks.view.Routed host) (hbuilt : built tasks.phase = none)
    (hplaced : tasks.Placed) : Guarded cfg tasks :=
  guarded_of_unbuilt hfenced (fun host hrouted => absurd hrouted (hnone host)) hbuilt hplaced

theorem guarded_retire (hfenced : Fenced cfg side.redirectListeners) (hapart : tasks.apart = none)
    (hnone : ∀ host, ¬side.Routed host) (respawn : Option HttpsSurroundings) :
    Guarded cfg (tasks.retire side respawn set) := by
  unfold retire
  cases hactive : side.active with
  | none =>
      have hunrouted : ∀ host, ¬(tasks.goto side (.retiring respawn set [])).view.Routed host :=
        not_routed hactive hapart
      exact guarded_of_unrouted hfenced hunrouted rfl ⟨hactive, hunrouted⟩
  | some handle =>
      have hunrouted : ∀ host, ¬∃ other, some handle = some other ∧
          (host ∈ other.frontend ∨ ∃ table, other.h3 = some table ∧ host ∈ table) := by
        rintro host ⟨other, hother, hhost⟩
        exact hnone host ⟨other, hactive.trans hother, hhost⟩
      exact guarded_of_unrouted (fenced_unregisterHandle hfenced handle) hunrouted rfl
        ⟨rfl, hunrouted⟩

theorem guarded_dropCert (h : Guarded cfg tasks) {host : String} {phase : ReconcilePhase}
    (hhost : ¬tasks.view.Routed (toAsciiLowercase host)) (hbuilt : built phase = none)
    (hplaced : (tasks.dropCert host phase).Placed) : Guarded cfg (tasks.dropCert host phase) := by
  refine guarded_of_unbuilt h.fenced (fun other hrouted => ?_) hbuilt hplaced
  refine AList.mem_erase.2 ⟨?_, h.routed other hrouted⟩
  rintro rfl
  exact hhost hrouted

theorem guarded_unclaim (h : Fenced cfg tasks.side.redirectListeners)
    (hactive : tasks.side.active = none) (hapart : tasks.apart = none) (hosts : List String) :
    Guarded cfg (tasks.unclaim cfg set hosts) := by
  refine guarded_of_unrouted ?_ (not_routed hactive hapart) rfl ⟨hactive, hapart⟩
  simp only [unclaim, goto]
  cases hlookup : tasks.side.redirectListeners.lookup cfg.httpsListen.ip with
  | none => exact h
  | some listener =>
      refine fenced_insert h ?_ _
      rw [foldl_unregisterHost]
      exact h _ listener hlookup

theorem guarded_spawn (h : Fenced cfg tasks.side.redirectListeners)
    (hactive : tasks.side.active = none) (hapart : tasks.apart = none) (env : HttpsSurroundings) :
    Guarded cfg (tasks.spawn cfg env set) := by
  unfold spawn
  split
  · exact guarded_of_unrouted h (not_routed hactive hapart) rfl hapart
  · simp only
    split
    · exact guarded_of_unrouted h (not_routed hactive hapart) rfl hapart
    · rename_i listener hcompanion
      refine guarded_of_unrouted (fenced_insert h ?_ _) (not_routed hactive hapart) rfl
        ⟨hactive, hapart⟩
      simp only [claimListener, foldl_registerHost, RedirectListener.unregisterPlaintextRoutes,
        RedirectListener.registerPlaintextRoutes]
      exact lan_companion h hcompanion

theorem guarded_handOver (h : Guarded cfg tasks) (hactive : tasks.side.active = none)
    {h3 : Option RouteTable} (hh3 : ∀ host table, h3 = some table → host ∈ table →
      tasks.Tabled host) : Guarded cfg (tasks.handOver set h3) := by
  refine guarded_of_unbuilt h.fenced ?_ rfl rfl
  rintro host ⟨handle, hhandle, hhost⟩
  simp only [view, handOver, Option.or_none, Option.map_eq_some_iff] at hhandle
  obtain ⟨old, hold, rfl⟩ := hhandle
  refine h.covered host ?_
  rcases hhost with hfrontend | ⟨table, htable, hhost⟩
  · exact .inl ⟨old, by simp [view, hactive, hold], .inl hfrontend⟩
  · exact hh3 host table htable hhost

theorem mem_buildTable {table : RouteTable} {host : String}
    (h : tasks.buildTable set = some table) (hhost : host ∈ table) :
    host ∈ tasks.side.certStore.entries := by
  unfold buildTable at h
  split at h
  · cases h
  · rw [← Option.some.inj h] at hhost
    exact mem_frontendTable hhost

/-- A table is built from the store. -/
theorem guarded_build (h : Guarded cfg tasks) {phase : ReconcilePhase} {table : RouteTable}
    (hbuilt : built phase = some table)
    (htable : ∀ host ∈ table, host ∈ tasks.side.certStore.entries)
    (hplaced : (tasks.goto tasks.side phase).Placed) :
    Guarded cfg (tasks.goto tasks.side phase) := by
  refine ⟨h.fenced, ?_, hplaced⟩
  rintro host (hrouted | ⟨other, hother, hhost⟩)
  · exact h.routed host hrouted
  · obtain rfl : table = other := Option.some.inj (hbuilt.symm.trans hother)
    exact htable host hhost

theorem guarded_advance (h : Guarded cfg tasks) (hstep : tasks.advance cfg = some next) :
    Guarded cfg next := by
  obtain ⟨side, apart, phase, reloads⟩ := tasks
  have hplaced := h.placed
  cases phase with
  | idle => cases hstep
  | swapping env set hosts certLess pending =>
      obtain ⟨rfl, hpending, hcompanion⟩ := hplaced
      cases pending with
      | cons host pending =>
          cases hstep
          rw [List.forall_mem_cons] at hpending
          exact guarded_dropCert h hpending.1 rfl ⟨rfl, hpending.2, hcompanion⟩
      | nil =>
          simp only [advance] at hstep
          split at hstep
          · rename_i hmissing
            cases hstep
            refine guarded_retire h.fenced rfl (fun host hrouted => ?_) _
            obtain ⟨handle, listener, hactive, hlookup⟩ :=
              hcompanion ⟨host, (routed_view rfl).2 hrouted⟩
            dsimp only at hactive hlookup
            simp [hactive, hlookup] at hmissing
          · rename_i handle listener hfound
            cases hstep
            obtain ⟨_, -, hfound⟩ := Option.bind_eq_some_iff.1 hfound
            obtain ⟨found, hlookup, hpair⟩ := Option.map_eq_some_iff.1 hfound
            refine guarded_of_unbuilt (fenced_insert h.fenced ?_ _) h.routed rfl rfl
            simp only [swapListener, foldl_registerHost, foldl_unregisterHost,
              RedirectListener.unregisterPlaintextRoutes,
              RedirectListener.registerPlaintextRoutes]
            exact (Prod.mk.inj hpair).2 ▸ h.fenced _ found hlookup
  | updating set hosts h3 table =>
      obtain rfl := hplaced
      cases table with
      | none =>
          cases hstep
          exact guarded_build h rfl (fun _ => mem_frontendTable) rfl
      | some table =>
          cases h3 <;> cases hstep <;>
            refine guarded_of_unbuilt h.fenced (fun host hrouted => ?_) rfl rfl <;>
            obtain ⟨handle, hhandle, hhost⟩ := (routed_view rfl).1 hrouted <;>
            obtain ⟨old, hold, rfl⟩ := Option.map_eq_some_iff.1 hhandle
          · rcases hhost with hnew | hkept
            · exact h.covered host (.inr ⟨table, rfl, hnew⟩)
            · exact h.routed host ((routed_view rfl).2 ⟨old, hold, .inr hkept⟩)
          · rcases hhost with hkept | ⟨other, hother, hnew⟩
            · exact h.routed host ((routed_view rfl).2 ⟨old, hold, .inl hkept⟩)
            · obtain ⟨_, -, rfl⟩ := Option.map_eq_some_iff.1 hother
              exact h.covered host (.inr ⟨table, rfl, hnew⟩)
  | retiring respawn set pending =>
      obtain ⟨hactive, hnone⟩ := hplaced
      cases pending with
      | cons host pending =>
          cases hstep
          exact guarded_dropCert h (hnone _) rfl ⟨hactive, hnone⟩
      | nil =>
          cases respawn with
          | none =>
              cases hstep
              exact guarded_of_unrouted h.fenced (not_routed hactive rfl) rfl rfl
          | some env =>
              cases hstep
              exact guarded_of_unrouted h.fenced (not_routed hactive rfl) rfl ⟨hactive, rfl⟩
  | spawning env set =>
      obtain ⟨hactive, hapart⟩ := hplaced
      cases hstep
      exact guarded_spawn h.fenced hactive hapart env
  | claimed env set hosts =>
      obtain ⟨hactive, hapart⟩ := hplaced
      simp only [advance] at hstep
      split at hstep
      · cases hstep
        exact guarded_unclaim h.fenced hactive hapart hosts
      · rename_i table htable
        cases hstep
        exact guarded_build h rfl (fun _ => mem_buildTable htable) ⟨hactive, hapart⟩
  | binding env set hosts table =>
      obtain ⟨hactive, hapart⟩ := hplaced
      simp only [advance] at hstep
      split at hstep
      · cases hstep
        refine guarded_of_unbuilt h.fenced ?_ rfl hactive
        rintro host ⟨handle, hhandle, hhost⟩
        dsimp only at hactive
        simp only [view, hactive, Option.none_or, Option.some.injEq] at hhandle
        subst hhandle
        rcases hhost with hnew | ⟨_, hnone, -⟩
        · exact h.covered host (.inr ⟨table, rfl, hnew⟩)
        · cases hnone
      · cases hstep
        exact guarded_unclaim h.fenced hactive hapart hosts
  | failed set pending =>
      obtain ⟨hactive, hapart⟩ := hplaced
      have hnone := not_routed hactive hapart
      cases pending with
      | cons host pending =>
          cases hstep
          exact guarded_dropCert h (hnone _) rfl ⟨hactive, hapart⟩
      | nil =>
          cases hstep
          exact guarded_of_unrouted h.fenced hnone rfl hapart
  | endpoint env set table =>
      cases table with
      | none =>
          simp only [advance] at hstep
          split at hstep
          · cases hstep
            exact guarded_handOver h hplaced (fun host table htable => by cases htable)
          · rename_i table htable
            cases hstep
            split at htable
            · exact guarded_build h rfl (fun _ => mem_buildTable htable) hplaced
            · cases htable
      | some table =>
          cases hstep
          refine guarded_handOver h hplaced (fun host other hother hhost => ?_)
          split at hother
          · exact .inr ⟨other, hother, hhost⟩
          · cases hother
  | finishing set =>
      cases hstep
      exact guarded_of_unbuilt (fun ip listener hlookup =>
        h.fenced ip listener (of_lookup_collectIdle hlookup)) h.routed rfl hplaced

theorem guarded_applySet (h : Guarded cfg tasks) {env : HttpsSurroundings}
    (hphase : tasks.phase = .idle) (hkeeps : tasks.KeepsRouted cfg (.applySet env set)) :
    Guarded cfg (tasks.applySet cfg env set) := by
  obtain ⟨side, apart, phase, reloads⟩ := tasks
  obtain rfl : phase = .idle := hphase
  obtain rfl : apart = none := h.placed
  replace hkeeps : ∀ host, side.Routed host → _ := fun host hrouted =>
    hkeeps host ((routed_view rfl).2 hrouted)
  simp only [applySet]
  split
  · rename_i hempty
    refine guarded_retire h.fenced rfl (fun host hrouted => ?_) none
    have hstays := (hkeeps host hrouted).1
    simp [hempty, hostsOf] at hstays
  · split
    · rename_i hactive
      exact guarded_of_unrouted h.fenced (not_routed hactive rfl) rfl ⟨hactive, rfl⟩
    · split
      · exact guarded_of_unbuilt h.fenced h.routed rfl rfl
      · rename_i hchanged
        have hloads := fun host hrouted => (hkeeps host hrouted).2.resolve_left hchanged
        split
        · rename_i store e hload
          apply guarded_retire
          · exact h.fenced
          · rfl
          · intro host hrouted
            obtain ⟨_, _, hloaded⟩ := loadAdded_of_loadable (hloads host hrouted).1
            simp [hload] at hloaded
        · rename_i store certLess hload
          refine guarded_of_unbuilt h.fenced (fun host hrouted =>
            mem_loadAdded hload (h.routed host hrouted)) rfl ⟨rfl, ?_, ?_⟩
          · intro host hhost hrouted
            rw [lower_of_mem_hostsOf (removedHosts_subset hhost)] at hrouted
            exact notMem_removedHosts (hkeeps host ((routed_view rfl).1 hrouted)).1 hhost
          · rintro ⟨host, hrouted⟩
            exact (hloads host ((routed_view rfl).1 hrouted)).2

theorem guarded_step {event : HttpsTaskEvent} (h : Guarded cfg tasks)
    (hkeeps : tasks.KeepsRouted cfg event) (hstep : tasks.step cfg event = some next) :
    Guarded cfg next := by
  cases event with
  | applySet env set =>
      simp only [step] at hstep
      split at hstep
      · rename_i hphase
        cases hstep
        exact guarded_applySet h hphase hkeeps
      · cases hstep
  | advance => exact guarded_advance h hstep
  | readSpec hostname =>
      simp only [step] at hstep
      split at hstep <;> cases hstep
      · exact h
      · exact ⟨h.fenced, h.covered, h.placed⟩
  | finishReload files reload =>
      obtain ⟨⟨hostname, spec⟩, hreload, rfl⟩ := Option.map_eq_some_iff.1 hstep
      refine ⟨h.fenced, fun host hhost => mem_finishReload (h.covered host hhost) ?_, h.placed⟩
      rintro hgone rfl
      exact hkeeps hostname spec hreload hgone hhost

theorem guarded_start : Guarded cfg start :=
  guarded_of_unrouted (fun ip listener hlookup => by cases hlookup)
    (not_routed rfl rfl) rfl rfl

/--
Whatever comes between the steps of a reconcile, every host that is served has a
certificate and only such hosts are reached from outside the LAN ranges.
-/
theorem covered_throughout {events : List HttpsTaskEvent}
    (hkeeps : Along (step cfg) (KeepsRouted cfg) start events)
    (hrun : run (step cfg) start events = some tasks) :
    tasks.view.Covered ∧ tasks.view.Gated cfg := by
  have h : Guarded cfg tasks :=
    run_invariant_of_guard (step cfg) (fun _ _ _ => guarded_step) guarded_start hkeeps hrun
  exact ⟨h.routed, gated_of_covered h.fenced h.routed⟩

def spawnTwo : List HttpsTaskEvent :=
  .applySet (toySurroundings true []) twoRoutes :: List.replicate 6 .advance

/-- A route without a certificate answers on connections that were opened for another host. -/
def Exposed (events : List HttpsTaskEvent) : Prop :=
  ∃ tasks, run (step toyCertConfig) start events = some tasks ∧
    "b.test" ∉ tasks.view.certStore.entries ∧
    tasks.view.answerTls (some "b.test") = some (.forward "b.test" "http://127.0.0.1:8080") ∧
    ¬tasks.view.Covered ∧ ¬tasks.view.Gated toyCertConfig

theorem exposed_of_run {events : List HttpsTaskEvent}
    (hrun : run (step toyCertConfig) start events = some tasks)
    (hgone : "b.test" ∉ tasks.view.certStore.entries)
    (hanswer : tasks.view.answerTls (some "b.test") =
      some (.forward "b.test" "http://127.0.0.1:8080")) : Exposed events := by
  refine ⟨tasks, hrun, hgone, hanswer, ?_, ?_⟩
  · exact fun hcovered => hgone (hcovered "b.test" (routed_of_answerTls hanswer))
  · exact fun hgated => hgone (hgated (.v4 7) rfl "b.test" (.tls hanswer))

/-- After a reload that finds the files gone, in the middle of a swap, and while a frontend is
drained. -/
theorem dropped_certificate_still_routed :
    Exposed (spawnTwo ++
      [.readSpec "b.test", .finishReload (toySurroundings false []).files 0]) ∧
    Exposed (spawnTwo ++ [.applySet (toySurroundings true []) oneRoute, .advance]) ∧
    Exposed (spawnTwo ++ [.applySet (toySurroundings true []) noRoutes, .advance, .advance]) :=
  ⟨exposed_of_run rfl (by decide) (by decide), exposed_of_run rfl (by decide) (by decide),
    exposed_of_run rfl (by decide) (by decide)⟩

/-- A certificate is reloaded while a set that adds a host is swapped in. -/
def swapThree : List HttpsTaskEvent :=
  spawnTwo ++ [.readSpec "a.test", .applySet (toySurroundings true []) threeRoutes, .advance,
    .advance, .finishReload (toySurroundings true []).files 0, .advance, .advance]

theorem covered_throughout_swap :
    ∃ tasks, run (step toyCertConfig) start swapThree = some tasks ∧
      tasks.view.Routed "c.test" ∧ tasks.view.Covered ∧ tasks.view.Gated toyCertConfig := by
  obtain ⟨tasks, hrun, hrouted⟩ :
      ∃ tasks, run (step toyCertConfig) start swapThree = some tasks ∧
        tasks.view.Routed "c.test" := ⟨_, rfl, _, rfl, .inl (by decide)⟩
  refine ⟨tasks, hrun, hrouted, covered_throughout ?_ hrun⟩
  have hspawned : ∀ host : String, host ∈ ["b.test", "a.test"] →
      host ∈ hostsOf threeRoutes.routes := by decide
  refine along_cons _ (fun host hrouted => absurd hrouted (not_routed rfl rfl host)) rfl ?_
  iterate 7 refine along_cons _ trivial rfl ?_
  refine along_cons _ ?_ rfl ?_
  · rintro host ⟨handle, hhandle, hhost⟩
    cases hhandle
    refine ⟨hspawned host ?_, .inr ⟨?_, _, _, rfl, rfl⟩⟩
    · rcases hhost with hhost | ⟨table, htable, hhost⟩
      · exact hhost
      · cases htable
        exact hhost
    · exact fun route hroute => ⟨_, rfl⟩
  · iterate 2 refine along_cons _ trivial rfl ?_
    refine along_cons _ ?_ rfl (along_cons _ trivial rfl (along_cons _ trivial rfl trivial))
    intro hostname spec hreload hgone
    cases hreload
    cases hgone

end HttpsTasks

end Yggdrasil.Proxy
