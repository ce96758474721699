import Yggdrasil.Proxy.Forward
import Yggdrasil.Proxy.ProxyProtocol

/-!
# Whose address the backend is told

A connection passes a gateway and any number of relays on its way to the
terminal.  Each hop names the client in a PROXY header; a relay and the terminal
take the client from the header they receive, or from the connection itself
where the header names none.  The terminal's HTTPS frontend looks for a header
on every connection, whoever opened it.
-/

namespace Yggdrasil.Proxy

open Foundation Ratatoskr
open HeaderName

structure Hop where
  listen : SocketAddr
  source : SocketAddr

section

variable (text : AddrText)

def recoverClient (peer : SocketAddr) : StreamReader SocketAddr := fun stream =>
  (readOptionalHeader text stream).map fun (decode, stream) =>
    ((decode.endpoints.map ProxyEndpoints.client).getD peer, decode.leftover ++ stream)

def handleConnection (proxyProtocol : Option ProxyProto) (expectInboundProxy : Bool)
    (clientAddr serverListen : SocketAddr) (stream : Bytes) : Except ReadError Bytes := do
  let (clientAddr, stream) ←
    if expectInboundProxy then recoverClient text clientAddr stream else .ok (clientAddr, stream)
  .ok ((proxyProtocol.map (fun version =>
    encodeHeader text version clientAddr serverListen)).getD [] ++ stream)

def handleTcpConnection (peer : SocketAddr) : StreamReader SocketAddr := recoverClient text peer

def relayStream : List Hop → SocketAddr → Bytes → Except ReadError (SocketAddr × Bytes)
  | [], peer, stream => .ok (peer, stream)
  | relay :: relays, peer, stream => do
      let stream ← handleConnection text (some .v2) true peer relay.listen stream
      relayStream relays relay.source stream

def chainConnection (gateway : Hop) (relays : List Hop) (client : SocketAddr) (stream : Bytes) :
    Except ReadError (SocketAddr × Bytes) := do
  let stream ← handleConnection text (some .v2) false client gateway.listen stream
  let (peer, stream) ← relayStream text relays gateway.source stream
  handleTcpConnection text peer stream

omit text in
/-- A hop that cannot name the client is itself taken for the client by the next. -/
def carried : SocketAddr → List Hop → SocketAddr
  | client, [] => client
  | client, hop :: hops =>
      carried (if sameFamily client.ip hop.listen.ip then client else hop.source) hops

theorem recoverClient_encodeV2 (peer client server : SocketAddr) (rest : Bytes) :
    recoverClient text peer (encodeV2 client server ++ rest) =
      .ok (if sameFamily client.ip server.ip then client else peer, rest) := by
  rw [recoverClient, readOptionalHeader_encodeV2]
  by_cases hfamily : sameFamily client.ip server.ip = true
  · simp [hfamily, Except.map]
  · simp [hfamily, Except.map]

theorem relayStream_encodeV2 (relays : List Hop) (hop : Hop) (client : SocketAddr)
    (stream : Bytes) :
    (relayStream text relays hop.source (encodeV2 client hop.listen ++ stream) >>=
      fun (peer, stream) => handleTcpConnection text peer stream) =
      .ok (carried client (hop :: relays), stream) := by
  induction relays generalizing hop client with
  | nil => exact recoverClient_encodeV2 text hop.source client hop.listen stream
  | cons relay relays ih =>
      have hforward : handleConnection text (some .v2) true hop.source relay.listen
          (encodeV2 client hop.listen ++ stream) =
          .ok (encodeV2 (if sameFamily client.ip hop.listen.ip then client else hop.source)
            relay.listen ++ stream) := by
        rw [handleConnection, if_pos rfl, recoverClient_encodeV2]
        rfl
      rw [relayStream, hforward]
      exact ih relay _

theorem chainConnection_eq (gateway : Hop) (relays : List Hop) (client : SocketAddr)
    (stream : Bytes) :
    chainConnection text gateway relays client stream =
      .ok (carried client (gateway :: relays), stream) :=
  relayStream_encodeV2 text relays gateway client stream

omit text in
theorem carried_of_sameFamily {client : SocketAddr} {hops : List Hop}
    (h : ∀ hop ∈ hops, sameFamily client.ip hop.listen.ip = true) : carried client hops = client := by
  induction hops with
  | nil => rfl
  | cons hop hops ih =>
      rw [carried, if_pos (h hop List.mem_cons_self)]
      exact ih fun hop hhop => h hop (List.mem_cons_of_mem _ hhop)

omit text in
theorem carried_mem (client : SocketAddr) (hops : List Hop) :
    carried client hops = client ∨ ∃ hop ∈ hops, carried client hops = hop.source := by
  induction hops generalizing client with
  | nil => exact .inl rfl
  | cons hop hops ih =>
      rw [carried]
      split
      · exact (ih client).imp_right fun ⟨other, hmem, h⟩ => ⟨other, List.mem_cons_of_mem _ hmem, h⟩
      · rcases ih hop.source with h | ⟨other, hmem, h⟩
        · exact .inr ⟨hop, List.mem_cons_self, h⟩
        · exact .inr ⟨other, List.mem_cons_of_mem _ hmem, h⟩

omit text in
theorem sameFamily_of_carried {client : SocketAddr} {hops : List Hop}
    (hsource : ∀ hop ∈ hops, hop.source ≠ client) (h : carried client hops = client) :
    ∀ hop ∈ hops, sameFamily client.ip hop.listen.ip = true := by
  induction hops with
  | nil => simp
  | cons hop hops ih =>
      rw [List.forall_mem_cons] at hsource ⊢
      rw [carried] at h
      split at h
      next hfamily => exact ⟨hfamily, ih hsource.2 h⟩
      next hfamily =>
        rcases carried_mem hop.source hops with heq | ⟨other, hmem, heq⟩
        · exact absurd (heq.symm.trans h) hsource.1
        · exact absurd (heq.symm.trans h) (hsource.2 other hmem)

/--
The terminal finds the address the gateway saw, and the client's bytes, wherever
every hop listens on an address of the client's family.  Where one does not, it
finds another address, as long as no hop shares the client's.
-/
theorem chain_keeps_client (gateway : Hop) (relays : List Hop) (client : SocketAddr)
    (stream : Bytes) :
    ((∀ hop ∈ gateway :: relays, sameFamily client.ip hop.listen.ip = true) →
      chainConnection text gateway relays client stream = .ok (client, stream)) ∧
    ((∀ hop ∈ gateway :: relays, hop.source ≠ client) →
      chainConnection text gateway relays client stream = .ok (client, stream) →
      ∀ hop ∈ gateway :: relays, sameFamily client.ip hop.listen.ip = true) := by
  rw [chainConnection_eq]
  refine ⟨fun hfamily => by rw [carried_of_sameFamily hfamily], fun hsource h => ?_⟩
  rw [Except.ok.injEq, Prod.mk.injEq] at h
  exact sameFamily_of_carried hsource h.1

omit text in
theorem chain_keeps_client_two_relays :
    let gateway : Hop := ⟨⟨.v4 0xC6336404, 443⟩, ⟨.v4 0xC6336404, 50000⟩⟩
    let relays : List Hop :=
      [⟨⟨.v4 0, 443⟩, ⟨.v4 0x0A000001, 50001⟩⟩, ⟨⟨.v4 0, 443⟩, ⟨.v4 0x0A000002, 50002⟩⟩]
    let client : SocketAddr := ⟨.v4 0xCB007107, 54321⟩
    (∀ hop ∈ gateway :: relays, hop.source ≠ client) ∧
      chainConnection .std gateway relays client [0x16] = .ok (client, [0x16]) ∧
      ∀ hop ∈ gateway :: relays, sameFamily client.ip hop.listen.ip = true := by
  intro gateway relays client
  have hsource : ∀ hop ∈ gateway :: relays, hop.source ≠ client := by decide
  have hfamily : ∀ hop ∈ gateway :: relays, sameFamily client.ip hop.listen.ip = true := by decide
  have hkeeps := chain_keeps_client .std gateway relays client [0x16]
  exact ⟨hsource, hkeeps.1 hfamily, hkeeps.2 hsource (hkeeps.1 hfamily)⟩

omit text in
/-- An IPv6 client of a gateway whose relay listens on IPv4: the terminal takes the relay for it. -/
theorem chain_loses_ipv6_client :
    let gateway : Hop := ⟨⟨.v6 0, 443⟩, ⟨.v4 0xC6336404, 50000⟩⟩
    let relay : Hop := ⟨⟨.v4 0, 443⟩, ⟨.v4 0x0A000001, 50001⟩⟩
    let client : SocketAddr := ⟨.v6 0x20010DB8000000000000000000000007, 54321⟩
    chainConnection .std gateway [relay] client [0x16] = .ok (relay.source, [0x16]) ∧
      relay.source ≠ client := by
  refine ⟨?_, by decide⟩
  rw [chainConnection_eq]
  rfl

/--
The fields of the requests that reach a backend over one connection; `serve`
stands for the TLS handshake and the HTTP requests read from what follows.
-/
def backendRequests (serve : Bytes → List Request) (peer : SocketAddr) (stream : Bytes) :
    List HeaderMap :=
  match handleTcpConnection text peer stream with
  | .error _ => []
  | .ok (clientAddr, stream) => (serve stream).filterMap (forwardRequest text ⟨clientAddr, true⟩)

/-- The bytes open with a header that names a client with another address than the peer's. -/
def NamesOther (peer : SocketAddr) (stream : Bytes) : Prop :=
  ∃ endpoints leftover rest,
    readOptionalHeader text stream = .ok (⟨some endpoints, leftover⟩, rest) ∧
      endpoints.client.ip ≠ peer.ip

theorem getAll_forwardRequest {ctx : ConnContext} {request : Request} {headers : HeaderMap}
    (h : forwardRequest text ctx request = some headers) {name : HeaderName}
    (hname : name ∈ [xForwardedFor, xRealIp]) :
    headers.getAll name = (HeaderValue.fromStr (text.format ctx.clientAddr.ip)).toList := by
  obtain ⟨host, -, rfl⟩ := Option.map_eq_some_iff.1 h
  exact getAll_address text _ _ _ _ _ hname

variable {peer : SocketAddr} {stream : Bytes}

theorem recoverClient_ok_iff {clientAddr : SocketAddr} {rest : Bytes} :
    recoverClient text peer stream = .ok (clientAddr, rest) ↔
      ∃ decode unread, readOptionalHeader text stream = .ok (decode, unread) ∧
        (decode.endpoints.map ProxyEndpoints.client).getD peer = clientAddr ∧
        decode.leftover ++ unread = rest := by
  unfold recoverClient
  cases readOptionalHeader text stream with
  | error e => simp [Except.map]
  | ok result => simp [Except.map, Prod.ext_iff]

theorem clientAddr_of_not_namesOther {clientAddr : SocketAddr} {rest : Bytes}
    (h : ¬ NamesOther text peer stream)
    (hconn : handleTcpConnection text peer stream = .ok (clientAddr, rest)) :
    clientAddr.ip = peer.ip := by
  obtain ⟨⟨endpoints, leftover⟩, unread, hread, rfl, -⟩ := (recoverClient_ok_iff text).1 hconn
  cases endpoints with
  | none => rfl
  | some endpoints =>
      by_contra hne
      exact h ⟨endpoints, leftover, unread, hread, hne⟩

theorem forwarded_of_namesOther (h : NamesOther text peer stream) :
    ∃ serve, ∃ headers ∈ backendRequests text serve peer stream,
      ∀ name ∈ [xForwardedFor, xRealIp],
        headers.getAll name ≠ (HeaderValue.fromStr (text.format peer.ip)).toList := by
  obtain ⟨endpoints, leftover, rest, hread, hne⟩ := h
  have hconn : handleTcpConnection text peer stream = .ok (endpoints.client, leftover ++ rest) :=
    (recoverClient_ok_iff text).2 ⟨⟨some endpoints, leftover⟩, rest, hread, rfl, rfl⟩
  let request : Request := ⟨true, some "example".toList, ⟨[]⟩⟩
  obtain ⟨headers, hheaders⟩ :
      ∃ headers, forwardRequest text ⟨endpoints.client, true⟩ request = some headers := ⟨_, rfl⟩
  refine ⟨fun _ => [request], headers, ?_, fun name hname heq => ?_⟩
  · simp only [backendRequests, hconn, List.filterMap_cons, hheaders]
    exact List.mem_cons_self
  · rw [getAll_forwardRequest text hheaders hname] at heq
    exact hne (fromStr_format_inj text heq)

theorem forwarded_of_not_namesOther (h : ¬ NamesOther text peer stream)
    {serve : Bytes → List Request} {headers : HeaderMap}
    (hheaders : headers ∈ backendRequests text serve peer stream) {name : HeaderName}
    (hname : name ∈ [xForwardedFor, xRealIp]) :
    headers.getAll name = (HeaderValue.fromStr (text.format peer.ip)).toList := by
  unfold backendRequests at hheaders
  split at hheaders
  next => cases hheaders
  next clientAddr rest hconn =>
    obtain ⟨request, -, hrequest⟩ := List.mem_filterMap.1 hheaders
    rw [getAll_forwardRequest text hrequest hname, clientAddr_of_not_namesOther text h hconn]

/--
Two connections from one peer both tell the backend the peer's own address,
whatever is served over them, exactly when neither opens with a header that
names another.
-/
theorem forwarded_address_is_peer_iff (peer : SocketAddr) (first second : Bytes) :
    (∀ stream ∈ [first, second], ∀ serve, ∀ headers ∈ backendRequests text serve peer stream,
      ∀ name ∈ [xForwardedFor, xRealIp],
        headers.getAll name = (HeaderValue.fromStr (text.format peer.ip)).toList) ↔
      ∀ stream ∈ [first, second], ¬ NamesOther text peer stream := by
  constructor
  · intro h stream hstream hother
    obtain ⟨serve, headers, hheaders, hne⟩ := forwarded_of_namesOther text hother
    exact hne xRealIp (by simp) (h stream hstream serve headers hheaders xRealIp (by simp))
  · intro h stream hstream serve headers hheaders name hname
    exact forwarded_of_not_namesOther text (h stream hstream) hheaders hname

omit text in
/-- One peer, with and without a header of its own making in front of the same bytes. -/
theorem peer_chooses_forwarded_address :
    let peer : SocketAddr := ⟨.v4 0xCB007107, 54321⟩
    let claimed : SocketAddr := ⟨.v4 0x0A000001, 1⟩
    let serve : Bytes → List Request := fun _ => [⟨true, some "example".toList, ⟨[]⟩⟩]
    let told (stream : Bytes) : List (List (Option Text)) :=
      (backendRequests .std serve peer stream).map
        (fun headers => (headers.getAll xForwardedFor).map HeaderValue.toStr)
    told (encodeV2 claimed peer ++ [0x16]) = [[some "10.0.0.1".toList]] ∧
      told [0x16] = [[some "203.0.113.7".toList]] := by
  decide +kernel

end

end Yggdrasil.Proxy
