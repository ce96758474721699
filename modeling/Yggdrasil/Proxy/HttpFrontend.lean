import Yggdrasil.Proxy.Certs

/-!
# Route tables and the companion listener

The HTTPS frontends and the plaintext companion on port 80 share one kind of
route table.  The companion forwards to a cert-less route only for peers inside
the LAN ranges, redirects the hosts that have a certificate, and answers
anything else as unknown.
-/

namespace Yggdrasil.Proxy

open Foundation Ratatoskr

structure RouteEntry where
  target : String
  hsts : Option HstsConfig
  headers : List (String × String)
  ruleName : String
  deriving DecidableEq, Repr

def RouteEntry.of (ruleName : String) (route : HttpRoute) : RouteEntry :=
  ⟨route.target, route.hsts, route.headers, ruleName⟩

abbrev RouteTable := HostTable RouteEntry

namespace RouteTable

def extend (table : RouteTable) (routes : List HttpRoute) (ruleName : String) : RouteTable :=
  fill HttpRoute.key (RouteEntry.of ruleName) routes table

def build (routes : List HttpRoute) (ruleName : String) : RouteTable := extend ∅ routes ruleName

def removeByRule (table : RouteTable) (ruleName : String) : RouteTable :=
  eraseAll ((table.entries.filter (fun entry => entry.2.ruleName == ruleName)).map Sigma.fst) table

/-- A trailing dot and a port are not part of the name that is looked up. -/
def normalize (host : String) : String :=
  let text := host.toList.rdropWhile (fun c => c == '.')
  toAsciiLowercase (String.ofList (((Text.rsplitOnce ':' text).map Prod.fst).getD text))

def lookupHost (table : RouteTable) (host : String) : Option RouteEntry :=
  table.lookup (normalize host)

end RouteTable

/-- Number of claims on each host of the companion. -/
abbrev HostSet := HostTable Nat

namespace HostSet

def contains (set : HostSet) (host : String) : Bool :=
  (set.lookup (toAsciiLowercase host)).isSome

def add (set : HostSet) (host : String) : HostSet :=
  let key := toAsciiLowercase host
  set.insert key ((set.lookup key).getD 0 + 1)

def remove (set : HostSet) (host : String) : HostSet :=
  let key := toAsciiLowercase host
  match set.lookup key with
  | none => set
  | some count => if count - 1 = 0 then set.erase key else set.insert key (count - 1)

end HostSet

inductive Answer where
  | badRequest
  | notFound
  | redirect (location : String)
  /-- The host of the route that was chosen, and its target. -/
  | forward (host target : String)
  deriving DecidableEq, Repr

/-- The route is chosen by the request's own host, whatever name the handshake was for. -/
def serveRequest (table : RouteTable) (host : Option String) : Answer :=
  match host with
  | none => .badRequest
  | some host =>
      match table.lookupHost host with
      | none => .notFound
      | some entry => .forward (RouteTable.normalize host) entry.target

structure RedirectListener where
  hosts : HostSet
  plaintextRoutes : RouteTable
  lanCidrs : Option (IpAddr → Bool)

namespace RedirectListener

def spawn (lanCidrs : Option (IpAddr → Bool)) : RedirectListener := ⟨∅, ∅, lanCidrs⟩

def registerHost (listener : RedirectListener) (host : String) : RedirectListener :=
  { listener with hosts := listener.hosts.add host }

def unregisterHost (listener : RedirectListener) (host : String) : RedirectListener :=
  { listener with hosts := listener.hosts.remove host }

def registerPlaintextRoutes (listener : RedirectListener) (routes : List HttpRoute)
    (ruleName : String) : RedirectListener :=
  { listener with plaintextRoutes := listener.plaintextRoutes.extend routes ruleName }

def unregisterPlaintextRoutes (listener : RedirectListener) (ruleName : String) :
    RedirectListener :=
  { listener with plaintextRoutes := listener.plaintextRoutes.removeByRule ruleName }

def isEmpty (listener : RedirectListener) : Bool :=
  listener.hosts.entries.isEmpty && listener.plaintextRoutes.entries.isEmpty

def bareHost (host : String) : String :=
  String.ofList (((Text.rsplitOnce ':' host.toList).map Prod.fst).getD host.toList)

/-- Without LAN ranges nothing is served in plaintext. -/
def lanAllows (listener : RedirectListener) (peer : IpAddr) : Bool :=
  (listener.lanCidrs.map (fun contains => contains peer)).getD false

def dispatch (listener : RedirectListener) (peer : IpAddr) (host : Option String)
    (pathAndQuery : String) : Answer :=
  match host with
  | none => .badRequest
  | some host =>
      match listener.plaintextRoutes.lookupHost (bareHost host) with
      | some entry =>
          if listener.lanAllows peer then
            serveRequest (RouteTable.build [⟨bareHost host, entry.target, none, []⟩] entry.ruleName)
              (some host)
          else .notFound
      | none =>
          if listener.hosts.contains (bareHost host) then
            .redirect ("https://" ++ bareHost host ++ pathAndQuery)
          else .notFound

end RedirectListener

theorem mem_of_serveRequest_forward {table : RouteTable} {host : Option String}
    {key target : String} (h : serveRequest table host = .forward key target) : key ∈ table := by
  unfold serveRequest at h
  cases host with
  | none => cases h
  | some host =>
      simp only at h
      split at h
      · cases h
      · rename_i entry hentry
        injection h with hkey
        rw [← hkey]
        exact mem_iff_lookup.2 ⟨entry, hentry⟩

theorem dispatch_ne_forward {listener : RedirectListener} {peer : IpAddr}
    (hpeer : listener.lanAllows peer = false) (host : Option String) (pathAndQuery key target : String) :
    listener.dispatch peer host pathAndQuery ≠ .forward key target := by
  unfold RedirectListener.dispatch
  cases host with
  | none => simp
  | some host =>
      simp only [hpeer, Bool.false_eq_true, if_false]
      split
      · simp
      · split
        · simp
        · simp

section

variable {table : RouteTable} {routes : List HttpRoute} {ruleName : String}

theorem mem_extend {host : String} (h : host ∈ table.extend routes ruleName) :
    host ∈ hostsOf routes ∨ host ∈ table := by
  obtain ⟨entry, hentry⟩ := mem_iff_lookup.1 h
  rcases of_lookup_fill HttpRoute.key hentry with ⟨route, hroute, hkey, -⟩ | hold
  · exact .inl (List.mem_map.2 ⟨route, hroute, hkey⟩)
  · exact .inr (mem_iff_lookup.2 ⟨entry, hold⟩)

theorem mem_extend_of_mem (hnodup : (hostsOf routes).Nodup) {route : HttpRoute}
    (hroute : route ∈ routes) : route.key ∈ table.extend routes ruleName :=
  mem_iff_lookup.2 ⟨_, lookup_fill_of_mem HttpRoute.key _ hnodup hroute⟩

theorem mem_build {host : String} (h : host ∈ RouteTable.build routes ruleName) :
    host ∈ hostsOf routes := by
  rcases mem_extend h with hroutes | hempty
  · exact hroutes
  · exact absurd hempty (AList.notMem_empty host)

theorem lookup_build (hnodup : (hostsOf routes).Nodup) (ruleName key : String) :
    (RouteTable.build routes ruleName).lookup key =
      (findKey HttpRoute.key routes key).map (RouteEntry.of ruleName) := by
  rw [RouteTable.build, RouteTable.extend, lookup_fill HttpRoute.key _ hnodup, AList.lookup_empty,
    Option.or_none]

def AllFrom (table : RouteTable) (ruleName : String) : Prop :=
  ∀ host entry, table.lookup host = some entry → entry.ruleName = ruleName

theorem allFrom_empty : AllFrom ∅ ruleName := by
  intro host entry h
  cases h

theorem allFrom_extend (h : AllFrom table ruleName) : AllFrom (table.extend routes ruleName) ruleName := by
  intro host entry hentry
  rcases of_lookup_fill HttpRoute.key hentry with ⟨route, -, -, hvalue⟩ | hold
  · rw [← hvalue]
    rfl
  · exact h host entry hold

theorem lookup_removeByRule (h : AllFrom table ruleName) (host : String) :
    (table.removeByRule ruleName).lookup host = none := by
  rw [RouteTable.removeByRule, lookup_eraseAll]
  split
  · rfl
  · rename_i hnot
    cases hentry : table.lookup host with
    | none => rfl
    | some entry =>
        have hmem := (mem_entries_iff table).2 hentry
        refine absurd (List.mem_map_of_mem (List.mem_filter.2 ⟨hmem, ?_⟩)) hnot
        simpa using h host entry hentry

end

def HostSet.Exactly (set : HostSet) (hosts : List String) : Prop :=
  ∀ host, set.lookup host = if host ∈ hosts then some 1 else none

section

variable {set : HostSet} {registered : List String}

variable {host : String} {hosts : List String}

theorem exactly_add (h : set.Exactly registered) (hlower : toAsciiLowercase host = host)
    (hfresh : host ∉ registered) : (set.add host).Exactly (host :: registered) := by
  have hcount : set.lookup (toAsciiLowercase host) = none := by
    rw [hlower, h host, if_neg hfresh]
  have hadd : set.add host = set.insert host 1 := by
    simp only [HostSet.add, hcount]
    rw [hlower]
    rfl
  intro other
  rw [hadd]
  by_cases hother : other = host
  · rw [hother, AList.lookup_insert, if_pos List.mem_cons_self]
  · rw [AList.lookup_insert_ne hother, h other]
    simp [hother]

theorem exactly_remove (h : set.Exactly registered) (hlower : toAsciiLowercase host = host) :
    (set.remove host).Exactly (registered.filter (fun other => other ≠ host)) := by
  intro other
  by_cases hmem : host ∈ registered
  · have hcount : set.lookup (toAsciiLowercase host) = some 1 := by
      rw [hlower, h host, if_pos hmem]
    have hremove : set.remove host = set.erase host := by
      simp only [HostSet.remove, hcount]
      rw [hlower]
      rfl
    rw [hremove]
    by_cases hother : other = host
    · rw [hother, AList.lookup_erase]
      simp
    · rw [AList.lookup_erase_ne hother, h other]
      simp [hother]
  · have hcount : set.lookup (toAsciiLowercase host) = none := by
      rw [hlower, h host, if_neg hmem]
    have hremove : set.remove host = set := by
      simp only [HostSet.remove, hcount]
    rw [hremove, h other]
    by_cases hother : other = host
    · simp [hother, hmem]
    · simp [hother]

theorem exactly_congr (h : set.Exactly registered)
    (hsame : ∀ host, host ∈ registered ↔ host ∈ hosts) : set.Exactly hosts := by
  intro host
  rw [h host]
  simp only [hsame host]

theorem exactly_foldl_add (h : set.Exactly registered)
    (hlower : ∀ host ∈ hosts, toAsciiLowercase host = host) (hnodup : hosts.Nodup)
    (hfresh : ∀ host ∈ hosts, host ∉ registered) :
    (hosts.foldl HostSet.add set).Exactly (hosts ++ registered) := by
  induction hosts generalizing set registered with
  | nil => exact h
  | cons first rest ih =>
      rw [List.nodup_cons] at hnodup
      rw [List.forall_mem_cons] at hlower hfresh
      have hfirst := exactly_add h hlower.1 hfresh.1
      refine exactly_congr (ih hfirst hlower.2 hnodup.2 ?_) ?_
      · intro host hhost hmem
        rcases List.mem_cons.1 hmem with rfl | hold
        · exact hnodup.1 hhost
        · exact hfresh.2 host hhost hold
      · intro host
        simp only [List.mem_append, List.mem_cons]
        tauto

theorem exactly_foldl_remove (h : set.Exactly registered)
    (hlower : ∀ host ∈ hosts, toAsciiLowercase host = host) :
    (hosts.foldl HostSet.remove set).Exactly
      (registered.filter (fun host => host ∉ hosts)) := by
  induction hosts generalizing set registered with
  | nil => exact exactly_congr h (by simp)
  | cons first rest ih =>
      rw [List.forall_mem_cons] at hlower
      refine exactly_congr (ih (exactly_remove h hlower.1) hlower.2) ?_
      intro host
      simp only [List.mem_filter, List.mem_cons, decide_eq_true_eq, not_or]
      tauto

theorem exactly_empty : HostSet.Exactly ∅ [] := by
  intro host
  rfl

theorem mem_of_exactly (h : set.Exactly registered) : host ∈ set ↔ host ∈ registered := by
  rw [mem_iff_lookup, h host]
  by_cases hmem : host ∈ registered
  · simp [hmem]
  · simp [hmem]

end

section

variable {listener : RedirectListener} {hosts : List String}

theorem not_isEmpty_of_mem {host : String}
    (h : host ∈ listener.hosts ∨ host ∈ listener.plaintextRoutes) :
    listener.isEmpty = false := by
  rw [RedirectListener.isEmpty, Bool.and_eq_false_iff, List.isEmpty_eq_false_iff,
    List.isEmpty_eq_false_iff]
  rcases h with hhost | hplain
  · exact .inl (entries_ne_nil_of_mem hhost)
  · exact .inr (entries_ne_nil_of_mem hplain)

theorem foldl_registerHost :
    hosts.foldl RedirectListener.registerHost listener =
      { listener with hosts := hosts.foldl HostSet.add listener.hosts } := by
  induction hosts generalizing listener with
  | nil => rfl
  | cons first rest ih => exact ih

theorem foldl_unregisterHost :
    hosts.foldl RedirectListener.unregisterHost listener =
      { listener with hosts := hosts.foldl HostSet.remove listener.hosts } := by
  induction hosts generalizing listener with
  | nil => rfl
  | cons first rest ih => exact ih

end

end Yggdrasil.Proxy
