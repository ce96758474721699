import Yggdrasil.Proxy.Exchange
import Yggdrasil.Proxy.HopByHop

/-!
# The host that a backend sees

A route is chosen by the authority of the request's URI, or by its `Host` field
when it has none.  The URI that goes to the backend has the backend's own
authority, and the `Host` fields go along as they came, unless a `Connection`
field nominates them.  The client fills in the authority where no `Host` field
is left.
-/

namespace Yggdrasil.Proxy

open Foundation Ratatoskr
open HeaderName

def SameHost (first second : Text) : Prop :=
  RouteTable.normalize (String.ofList first) = RouteTable.normalize (String.ofList second)

instance (first second : Text) : Decidable (SameHost first second) :=
  inferInstanceAs (Decidable (_ = _))

def Outgoing.hosts (out : Outgoing) : List (Option Text) :=
  if out.headers.getAll host = [] then [some out.authority]
  else (out.headers.getAll host).map HeaderValue.toStr

def SeesHost (selecting : Text) (out : Outgoing) : Prop :=
  ∀ value ∈ out.hosts, ∃ text ∈ value, SameHost text selecting

instance (selecting : Text) (out : Outgoing) : Decidable (SeesHost selecting out) :=
  inferInstanceAs (Decidable (∀ value ∈ out.hosts, _))

/-- A handshake keeps its `Host` fields even when they are nominated. -/
def keptHosts (headers : HeaderMap) : Handling → List HeaderValue
  | .normal => if host ∈ connectionTokens headers then [] else headers.getAll host
  | .websocket => headers.getAll host

theorem getAll_host_sanitise (headers : HeaderMap) (handling : Handling) :
    (handling.sanitise headers).getAll host = keptHosts headers handling := by
  cases handling with
  | normal =>
      have hfixed : host ∉ hopByHopHeaders ++ untrustedForwarding := by decide
      have hstripped : host ∈ stripped headers ↔ host ∈ connectionTokens headers := by
        rw [stripped, List.mem_append, or_iff_left hfixed]
      rw [Handling.sanitise, getAll_sanitiseRequestHeaders, keptHosts]
      simp only [hstripped]
  | websocket =>
      have huntrusted : host ∉ untrustedForwarding := by decide
      have hhop : host ∉ [proxyAuthenticate, proxyAuthorization, te, trailer,
          transferEncoding] := by decide
      have hne : host ≠ connection := by decide
      rw [Handling.sanitise, sanitiseRequestHeadersForWebsocket, stripUntrustedForwarding,
        MultiMap.getAll_removeAll, if_neg huntrusted, keptHosts]
      split
      · rw [MultiMap.getAll_removeAll, if_neg hhop]
      · rw [MultiMap.getAll_remove_of_ne _ hne, MultiMap.getAll_removeAll, if_neg hhop]

theorem getAll_host_forwardedHeaders (text : AddrText) (handling : Handling) (headers : HeaderMap)
    (clientIp : IpAddr) (selecting : Option Text) (scheme : Text) :
    (forwardedHeaders text handling headers clientIp selecting scheme).getAll host =
      keptHosts headers handling := by
  have hnot : host ∉ (injectedFields text clientIp selecting scheme).map Prod.fst := by
    have hnames : host ∉ [xForwardedFor, xRealIp] ++
        ([xForwardedProto, xForwardedProtocol] ++ [xForwardedHost]) := by decide
    exact fun h => hnames (name_mem_of_injectedFields text h)
  rw [forwardedHeaders, injectForwarded_eq, MultiMap.getAll_insertAll_of_notMem _ hnot,
    getAll_host_sanitise]

theorem authority_of_buildUpstreamUri {up : Upstream} {pathAndQuery : Option Text}
    {target : String} {uri : Text × Text}
    (h : buildUpstreamUri up pathAndQuery target = some uri) :
    upstreamAuthority up.lib target = some uri.1 := by
  obtain ⟨authority, hauthority, huri⟩ := Option.bind_eq_some_iff.1 h
  rw [Option.ite_none_right_eq_some] at huri
  rw [hauthority, ← Option.some.inj huri.2]

section

variable (text : AddrText) {up : Upstream} {inbound : Inbound} {frontend : Frontend}
  {entry : RouteEntry} {selecting : Text} {out : Outgoing}

theorem sent_inversion (hhost : extractHost inbound.toRequest = some selecting)
    (hmatched : frontend.route inbound = some entry)
    (hsent : frontend.sent text up inbound = some out) :
    upstreamAuthority up.lib entry.target = some out.authority ∧
      out.headers.getAll host =
        keptHosts inbound.headers (frontend.handling inbound.toRequest) := by
  rw [Frontend.sent, hhost, Option.bind_some, hmatched, Option.bind_some] at hsent
  obtain ⟨uri, huri, hbody⟩ := Option.bind_eq_some_iff.1 hsent
  rw [Option.ite_none_right_eq_some] at hbody
  rw [← Option.some.inj hbody.2]
  exact ⟨authority_of_buildUpstreamUri huri,
    getAll_host_forwardedHeaders text _ _ _ _ _⟩

/--
The backend sees the host that selected the route exactly when every `Host`
field that is left names it, or when none is left and the backend is itself
addressed by that name.
-/
theorem backend_sees_host_iff (hhost : extractHost inbound.toRequest = some selecting)
    (hmatched : frontend.route inbound = some entry)
    (hsent : frontend.sent text up inbound = some out) :
    SeesHost selecting out ↔
      if keptHosts inbound.headers (frontend.handling inbound.toRequest) = [] then
        ∃ authority ∈ upstreamAuthority up.lib entry.target, SameHost authority selecting
      else
        ∀ value ∈ keptHosts inbound.headers (frontend.handling inbound.toRequest),
          ∃ named ∈ value.toStr, SameHost named selecting := by
  obtain ⟨hauthority, hkept⟩ := sent_inversion text hhost hmatched hsent
  rw [SeesHost, Outgoing.hosts, hkept, hauthority]
  split
  · simp
  · simp

end

/-- The route is selected by one host and the backend sees another. -/
structure OtherHostSeen (frontend : Frontend) (inbound : Inbound) (selecting : Text) : Prop where
  selected : extractHost inbound.toRequest = some selecting
  matched : (frontend.route inbound).isSome
  other : ∃ out, frontend.sent .std (backendThat fun _ => none) inbound = some out ∧
    ¬ SeesHost selecting out

def appRoute : HttpRoute := ⟨"app.test", "http://10.0.0.7:8080", none, []⟩

def originForm : Inbound := getRequest true none (hopRequest [(host, "App.test:443")])

theorem origin_form_sees_host :
    ∃ out, (tlsFrontend [appRoute]).sent .std (backendThat fun _ => none) originForm = some out ∧
      SeesHost "App.test:443".toList out := by
  have hhost : extractHost originForm.toRequest = some "App.test:443".toList := by decide
  have hmatched : (tlsFrontend [appRoute]).route originForm =
      some (RouteEntry.of httpsFrontendName appRoute) := by decide
  obtain ⟨out, hsent⟩ : ∃ out, (tlsFrontend [appRoute]).sent .std
      (backendThat fun _ => none) originForm = some out := ⟨_, rfl⟩
  refine ⟨out, hsent, (backend_sees_host_iff .std hhost hmatched hsent).2 ?_⟩
  decide

/-- Without a `Host` field, over HTTP/2 and HTTP/3, the backend sees its own address; so it does
when the field is nominated; in absolute form it sees whatever the field says. -/
theorem other_host_seen :
    OtherHostSeen (tlsFrontend [appRoute])
      (getRequest false (some "app.test".toList) ⟨[]⟩) "app.test".toList ∧
    OtherHostSeen (h3Frontend [appRoute])
      (getRequest false (some "app.test".toList) ⟨[]⟩) "app.test".toList ∧
    OtherHostSeen (tlsFrontend [appRoute])
      (getRequest true (some "app.test".toList) (hopRequest [(host, "other.test")]))
      "app.test".toList ∧
    OtherHostSeen (tlsFrontend [appRoute])
      (getRequest true none (hopRequest [(host, "app.test"), (connection, "host")]))
      "app.test".toList := by
  refine ⟨⟨rfl, by decide, _, rfl, by decide⟩, ⟨rfl, by decide, _, rfl, by decide⟩,
    ⟨rfl, by decide, _, rfl, by decide⟩, ⟨by decide, by decide, _, rfl, by decide⟩⟩

end Yggdrasil.Proxy
