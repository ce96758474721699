import Yggdrasil.Proxy.Forward
import Yggdrasil.Proxy.Https

/-!
# Exchanges

A request and the response it gets, over each of the three ways in: the TLS
frontend for HTTP/1.1 and HTTP/2, the HTTP/3 frontend, and the plaintext
companion.  All three choose the route by the request's host and rewrite the
request in one way; they differ in which requests they refuse and in what they
add to a response.
-/

namespace Yggdrasil.Proxy

open Foundation Ratatoskr
open HeaderName

inductive Method where
  | connect
  | other (name : Text)
  deriving DecidableEq

structure Body where
  chunks : List Bytes
  complete : Bool
  deriving DecidableEq

def utf8 (text : String) : Bytes := text.toList.flatMap String.utf8EncodeChar

def Body.ofText (text : String) : Body := ⟨[utf8 text], true⟩

def Body.empty : Body := ⟨[], true⟩

structure Inbound extends Request where
  method : Method
  pathAndQuery : Option Text
  body : Body

structure Outgoing where
  method : Method
  authority : Text
  pathAndQuery : Text
  headers : HeaderMap
  body : Body
  deriving DecidableEq

structure Response where
  status : Nat
  headers : HeaderMap
  body : Body
  deriving DecidableEq

/-- URLs and URIs as their libraries read them, and the backends, which may fail to answer. -/
structure Upstream where
  lib : Library
  acceptsUri : Text → Text → Bool
  respond : Outgoing → Option Response

namespace HeaderName

def altSvc : HeaderName := ⟨"alt-svc".toList, by decide⟩
def contentLength : HeaderName := ⟨"content-length".toList, by decide⟩
def contentType : HeaderName := ⟨"content-type".toList, by decide⟩
def location : HeaderName := ⟨"location".toList, by decide⟩
def secWebsocketVersion : HeaderName := ⟨"sec-websocket-version".toList, by decide⟩
def strictTransportSecurity : HeaderName := ⟨"strict-transport-security".toList, by decide⟩

end HeaderName

theorem isValueByte_toDigits (n : Nat) :
    ((Nat.toDigits 10 n).map (fun c => UInt8.ofNat c.toNat)).all isValueByte = true := by
  rw [List.all_map, List.all_eq_true]
  intro c hc
  have hdigit := AddrText.isAsciiDigit_of_mem_toDigits hc
  rw [Text.isAsciiDigit, Bool.and_eq_true, decide_eq_true_eq, decide_eq_true_eq] at hdigit
  have hlow : 48 ≤ c.toNat := hdigit.1
  have hhigh : c.toNat ≤ 57 := hdigit.2
  exact isValueByte_ofNat (by omega) (by omega)

def HeaderValue.decimal (n : Nat) : HeaderValue :=
  ⟨(Nat.toDigits 10 n).map (fun c => UInt8.ofNat c.toNat), isValueByte_toDigits n⟩

def plainText : HeaderValue :=
  ⟨utf8 "text/plain; charset=utf-8", by decide⟩

/-- A text that is no field value is left out. -/
def insertText (headers : HeaderMap) (name : HeaderName) (text : Text) : HeaderMap :=
  match HeaderValue.fromStr text with
  | some value => headers.insert name value
  | none => headers

def sanitiseResponseHeaders (headers : HeaderMap) : HeaderMap := stripHopByHop headers

def hstsText (cfg : HstsConfig) : Text :=
  "max-age=".toList ++ Nat.toDigits 10 cfg.maxAge.toNat ++
    (if cfg.includeSubdomains then "; includeSubDomains".toList else []) ++
    (if cfg.preload then "; preload".toList else [])

def maybeInjectHsts (headers : HeaderMap) (hsts : Option HstsConfig) : HeaderMap :=
  match hsts with
  | none => headers
  | some cfg =>
      if headers.getAll strictTransportSecurity ≠ [] then headers
      else insertText headers strictTransportSecurity (hstsText cfg)

def staticField (header : String × String) : Option (HeaderName × HeaderValue) :=
  (HeaderName.fromBytes header.1.toList).bind fun name =>
    (HeaderValue.fromStr header.2.toList).map fun value => (name, value)

def applyStaticResponseHeaders (headers : HeaderMap) (static : List (String × String)) :
    HeaderMap :=
  static.foldl (fun headers header =>
    match staticField header with
    | some field => headers.insert field.1 field.2
    | none => headers) headers

theorem applyStaticResponseHeaders_eq (headers : HeaderMap) (static : List (String × String)) :
    applyStaticResponseHeaders headers static =
      headers.insertAll (static.filterMap staticField) := by
  unfold applyStaticResponseHeaders MultiMap.insertAll
  induction static generalizing headers with
  | nil => rfl
  | cons header rest ih =>
      rw [List.foldl_cons, ih]
      cases hfield : staticField header with
      | none => rw [List.filterMap_cons_none hfield]
      | some field => rw [List.filterMap_cons_some hfield, List.foldl_cons]

def routeHeaders (entry : RouteEntry) (headers : HeaderMap) : HeaderMap :=
  applyStaticResponseHeaders (maybeInjectHsts headers entry.hsts) entry.headers

section

variable (text : AddrText)

def upstreamAuthority (lib : Library) (target : String) : Option Text :=
  match lib.urlHostStr target, lib.urlPortOrKnownDefault target with
  | some host, some port => some (host.toList ++ ':' :: Nat.toDigits 10 port.toNat)
  | some host, none => some host.toList
  | none, _ => none

def buildUpstreamUri (up : Upstream) (pathAndQuery : Option Text) (target : String) :
    Option (Text × Text) :=
  (upstreamAuthority up.lib target).bind fun authority =>
    if up.acceptsUri authority (pathAndQuery.getD ['/']) then
      some (authority, pathAndQuery.getD ['/'])
    else none

/-- An upgrade is only recognised over HTTP/1.1. -/
def handlingOf (request : Request) : Handling :=
  if request.http11 && isWebsocketUpgrade request.headers then .websocket else .normal

def outgoingTo (ctx : ConnContext) (handling : Handling) (inbound : Inbound) (host : Text)
    (body : Body) (uri : Text × Text) : Outgoing where
  method := inbound.method
  authority := uri.1
  pathAndQuery := uri.2
  headers := forwardedHeaders text handling inbound.headers ctx.clientAddr.ip (some host)
    ctx.forwardedScheme
  body := body

structure FrontendContext extends ConnContext where
  rule : Option Rule
  routes : RouteTable
  emitAltSvc : Bool

def shortResponse (status : Nat) (body : String) : Response :=
  ⟨status, ⟨[(contentType, plainText)]⟩, .ofText body⟩

def forwardNormal (up : Upstream) (ctx : ConnContext) (inbound : Inbound) (target : String)
    (host : Text) : Option Response :=
  (buildUpstreamUri up inbound.pathAndQuery target).bind fun uri =>
    (up.respond (outgoingTo text ctx .normal inbound host inbound.body uri)).map fun resp =>
      { resp with headers := sanitiseResponseHeaders resp.headers }

/-- After the handshake both ends talk over the hijacked connection. -/
def forwardWebsocket (up : Upstream) (ctx : ConnContext) (inbound : Inbound) (target : String)
    (host : Text) : Option Response :=
  (buildUpstreamUri up inbound.pathAndQuery target).bind fun uri =>
    (up.respond (outgoingTo text ctx .websocket inbound host inbound.body uri)).map fun resp =>
      if resp.status ≠ 101 then { resp with headers := sanitiseResponseHeaders resp.headers }
      else { resp with body := .empty }

def forward (up : Upstream) (ctx : ConnContext) (inbound : Inbound) (target : String)
    (host : Text) : Option Response :=
  match handlingOf inbound.toRequest with
  | .websocket => forwardWebsocket text up ctx inbound target host
  | .normal => forwardNormal text up ctx inbound target host

def altSvcText (port : UInt16) : Text :=
  "h3=\":".toList ++ Nat.toDigits 10 port.toNat ++ "\"; ma=86400".toList

def maybeInjectAltSvc (ctx : FrontendContext) (resp : Response) : Response :=
  match ctx.rule with
  | none => resp
  | some rule =>
      if ctx.tls ∧ ctx.emitAltSvc ∧ rule.protocol = .https ∧ resp.headers.getAll altSvc = [] then
        { resp with headers := insertText resp.headers altSvc (altSvcText rule.listen.port) }
      else resp

/-- What a matched request gets: the backend's response or an error in its place, with the
route's own fields. -/
def routedResponse (ctx : FrontendContext) (entry : RouteEntry) (answer : Option Response) :
    Response :=
  let resp := answer.getD (shortResponse 502 "")
  maybeInjectAltSvc ctx { resp with headers := routeHeaders entry resp.headers }

def FrontendContext.serveRequest (ctx : FrontendContext) (up : Upstream) (inbound : Inbound) :
    Response :=
  match extractHost inbound.toRequest with
  | none => maybeInjectAltSvc ctx (shortResponse 400 "")
  | some host =>
      match ctx.routes.lookupHost (String.ofList host) with
      | none => maybeInjectAltSvc ctx (shortResponse 404 "no route\n")
      | some entry =>
          routedResponse ctx entry (forward text up ctx.toConnContext inbound entry.target host)

structure H3Context where
  routes : RouteTable
  peerAddr : SocketAddr
  requestBodyLimit : Nat

def shortFields (body : String) : List (HeaderName × HeaderValue) :=
  [(contentType, plainText), (contentLength, .decimal (utf8 body).length)]

def sendShortResponse (status : Nat) (body : String) : Response :=
  ⟨status, ⟨shortFields body⟩, .ofText body⟩

def websocketH3Text : String :=
  "websocket-over-h3 (RFC 9220 extended CONNECT) not supported; fall back to HTTP/2\n"

def sendWebsocketH3501 : Response :=
  ⟨501, ⟨shortFields websocketH3Text ++ [(secWebsocketVersion, .decimal 13)]⟩,
    .ofText websocketH3Text⟩

inductive Collected where
  | bytes (bytes : Bytes)
  | tooLarge
  | failed
  deriving DecidableEq

def collectH3RequestBody (cap : Nat) (complete : Bool) : List Bytes → Bytes → Collected
  | [], buf => if complete then .bytes buf else .failed
  | chunk :: rest, buf =>
      if cap < buf.length + chunk.length then .tooLarge
      else collectH3RequestBody cap complete rest (buf ++ chunk)

/-- No response is sent when the request's body breaks off. -/
def H3Context.handleStream (ctx : H3Context) (up : Upstream) (inbound : Inbound) :
    Option Response :=
  match extractHost inbound.toRequest with
  | none => some (sendShortResponse 400 "missing :authority/Host\n")
  | some host =>
      match ctx.routes.lookupHost (String.ofList host) with
      | none => some (sendShortResponse 404 "no route\n")
      | some entry =>
          if inbound.method = .connect then some sendWebsocketH3501
          else
            match buildUpstreamUri up inbound.pathAndQuery entry.target with
            | none => some (sendShortResponse 502 "bad upstream\n")
            | some uri =>
                match collectH3RequestBody ctx.requestBodyLimit inbound.body.complete
                  inbound.body.chunks [] with
                | .tooLarge => some (sendShortResponse 413 "request body exceeds h3 buffer cap\n")
                | .failed => none
                | .bytes bytes =>
                    match up.respond (outgoingTo text ⟨ctx.peerAddr, true⟩ .normal inbound host
                      ⟨[bytes], true⟩ uri) with
                    | none => some (sendShortResponse 502 "backend unreachable\n")
                    | some resp =>
                        let headers := sanitiseResponseHeaders resp.headers
                        some { resp with headers := routeHeaders entry headers }

/-! ## Companion -/

/-- The context of a plaintext request: one route, without what the matched route configures. -/
def RedirectListener.plaintextContext (peer : SocketAddr) (host : String) (entry : RouteEntry) :
    FrontendContext :=
  { clientAddr := peer
    tls := false
    rule := none
    routes := RouteTable.build [⟨bareHost host, entry.target, none, []⟩] entry.ruleName
    emitAltSvc := false }

def redirectResponse (location : Text) : Option Response :=
  (HeaderValue.fromStr location).map fun value =>
    ⟨301, ⟨[(HeaderName.location, value)]⟩, .empty⟩

def RedirectListener.respond (listener : RedirectListener) (peer : SocketAddr) (up : Upstream)
    (inbound : Inbound) : Option Response :=
  match extractHost inbound.toRequest with
  | none => some (shortResponse 400 "")
  | some host =>
      match listener.plaintextRoutes.lookupHost (bareHost (String.ofList host)) with
      | some entry =>
          if listener.lanAllows peer.ip then
            some ((plaintextContext peer (String.ofList host) entry).serveRequest text up inbound)
          else some (shortResponse 404 "no route\n")
      | none =>
          if listener.hosts.contains (bareHost (String.ofList host)) then
            redirectResponse ("https://".toList ++ (bareHost (String.ofList host)).toList ++
              inbound.pathAndQuery.getD ['/'])
          else some (shortResponse 404 "no route\n")

inductive Frontend where
  | tls (ctx : FrontendContext)
  | http3 (ctx : H3Context)
  | companion (listener : RedirectListener) (peer : SocketAddr)

namespace Frontend

def reply (up : Upstream) (inbound : Inbound) : Frontend → Option Response
  | tls ctx => some (ctx.serveRequest text up inbound)
  | http3 ctx => ctx.handleStream text up inbound
  | companion listener peer => listener.respond text peer up inbound

def route (inbound : Inbound) : Frontend → Option RouteEntry
  | tls ctx =>
      (extractHost inbound.toRequest).bind fun host => ctx.routes.lookupHost (String.ofList host)
  | http3 ctx =>
      (extractHost inbound.toRequest).bind fun host => ctx.routes.lookupHost (String.ofList host)
  | companion listener peer =>
      (extractHost inbound.toRequest).bind fun host =>
        (listener.plaintextRoutes.lookupHost
          (RedirectListener.bareHost (String.ofList host))).filter fun entry =>
            listener.lanAllows peer.ip &&
              ((RedirectListener.plaintextContext peer (String.ofList host)
                entry).routes.lookupHost (String.ofList host)).isSome

def conn : Frontend → ConnContext
  | tls ctx => ctx.toConnContext
  | http3 ctx => ⟨ctx.peerAddr, true⟩
  | companion _ peer => ⟨peer, false⟩

def handling (request : Request) : Frontend → Handling
  | http3 _ => .normal
  | _ => handlingOf request

/-- HTTP/3 requests are refused by their method, and by their body when it is too large or breaks
off. -/
def accepts (inbound : Inbound) : Frontend → Bool
  | http3 ctx => inbound.method ≠ .connect && inbound.body.complete &&
      inbound.body.chunks.flatten.length ≤ ctx.requestBodyLimit
  | _ => true

/-- HTTP/3 bodies are read to their end before anything is sent on. -/
def bodyOf (body : Body) : Frontend → Body
  | http3 _ => ⟨[body.chunks.flatten], true⟩
  | _ => body

/-- The request that goes to the backend, if one does. -/
def sent (up : Upstream) (inbound : Inbound) (frontend : Frontend) : Option Outgoing :=
  (extractHost inbound.toRequest).bind fun host =>
    (frontend.route inbound).bind fun entry =>
      (buildUpstreamUri up inbound.pathAndQuery entry.target).bind fun uri =>
        if frontend.accepts inbound then
          some (outgoingTo text frontend.conn (frontend.handling inbound.toRequest) inbound host
            (frontend.bodyOf inbound.body) uri)
        else none

def received (handling : Handling) (resp : Response) : Response :=
  match handling with
  | .normal => { resp with headers := sanitiseResponseHeaders resp.headers }
  | .websocket =>
      if resp.status ≠ 101 then { resp with headers := sanitiseResponseHeaders resp.headers }
      else { resp with body := .empty }

/-- What the backend answers to the request it is sent. -/
def responded (up : Upstream) (inbound : Inbound) (frontend : Frontend) : Option Response :=
  (frontend.sent text up inbound).bind up.respond

def answer (up : Upstream) (inbound : Inbound) (frontend : Frontend) : Option Response :=
  (frontend.responded text up inbound).map (received (frontend.handling inbound.toRequest))

end Frontend

open Frontend

variable {up : Upstream} {inbound : Inbound} {entry : RouteEntry}

omit text in
theorem collectH3RequestBody_eq {cap : Nat} (complete : Bool) (chunks : List Bytes) {buf : Bytes}
    (hbuf : buf.length ≤ cap) :
    collectH3RequestBody cap complete chunks buf =
      if cap < (buf ++ chunks.flatten).length then .tooLarge
      else if complete then .bytes (buf ++ chunks.flatten) else .failed := by
  induction chunks generalizing buf with
  | nil =>
      rw [List.flatten_nil, List.append_nil, if_neg (Nat.not_lt.2 hbuf)]
      rfl
  | cons chunk rest ih =>
      rw [collectH3RequestBody, List.flatten_cons, ← List.append_assoc]
      split
      · rename_i hlarge
        rw [if_pos (by simp only [List.length_append]; omega)]
      · rename_i hsmall
        exact ih (by rw [List.length_append]; omega)

omit text in
theorem collectH3RequestBody_nil (cap : Nat) (complete : Bool) (chunks : List Bytes) :
    collectH3RequestBody cap complete chunks [] =
      if cap < chunks.flatten.length then .tooLarge
      else if complete then .bytes chunks.flatten else .failed :=
  collectH3RequestBody_eq complete chunks (Nat.zero_le cap)

variable {frontend : Frontend} {host : Text}

theorem sent_eq (hhost : extractHost inbound.toRequest = some host)
    (hroute : frontend.route inbound = some entry) (haccepts : frontend.accepts inbound = true) :
    frontend.sent text up inbound =
      (buildUpstreamUri up inbound.pathAndQuery entry.target).map (outgoingTo text frontend.conn
        (frontend.handling inbound.toRequest) inbound host (frontend.bodyOf inbound.body)) := by
  rw [sent, hhost, Option.bind_some, hroute, Option.bind_some, haccepts, Option.map_eq_bind]
  rfl

theorem accepts_http3_iff {ctx : H3Context} :
    (http3 ctx).accepts inbound = true ↔ inbound.method ≠ .connect ∧
      inbound.body.complete = true ∧
      inbound.body.chunks.flatten.length ≤ ctx.requestBodyLimit := by
  simp only [accepts, Bool.and_eq_true, decide_eq_true_eq, and_assoc]

theorem forward_eq (ctx : ConnContext) (target : String) (host : Text) :
    forward text up ctx inbound target host =
      (((buildUpstreamUri up inbound.pathAndQuery target).map
        (outgoingTo text ctx (handlingOf inbound.toRequest) inbound host inbound.body)).bind
          up.respond).map (received (handlingOf inbound.toRequest)) := by
  unfold forward forwardNormal forwardWebsocket
  cases handlingOf inbound.toRequest with
  | normal => cases buildUpstreamUri up inbound.pathAndQuery target <;> rfl
  | websocket => cases buildUpstreamUri up inbound.pathAndQuery target <;> rfl

theorem forward_eq_answer (frontend : Frontend) (hhost : extractHost inbound.toRequest = some host)
    (hroute : frontend.route inbound = some entry) (haccepts : frontend.accepts inbound = true)
    (hbody : frontend.bodyOf inbound.body = inbound.body)
    (hhandling : frontend.handling inbound.toRequest = handlingOf inbound.toRequest) :
    forward text up frontend.conn inbound entry.target host =
      frontend.answer text up inbound := by
  rw [forward_eq, answer, responded, sent_eq text hhost hroute haccepts, hbody, hhandling]

theorem reply_tls {ctx : FrontendContext} (h : (tls ctx).route inbound = some entry) :
    (tls ctx).reply text up inbound =
      some (routedResponse ctx entry ((tls ctx).answer text up inbound)) := by
  obtain ⟨host, hhost, hentry⟩ := Option.bind_eq_some_iff.1 h
  have hforward : forward text up ctx.toConnContext inbound entry.target host =
      (tls ctx).answer text up inbound := forward_eq_answer text (tls ctx) hhost h rfl rfl rfl
  rw [reply, FrontendContext.serveRequest, hhost]
  simp only [hentry, hforward]

/-- What a backend responds to an HTTP/3 request comes back with the route's own fields. -/
theorem reply_http3 {ctx : H3Context} (h : (http3 ctx).route inbound = some entry)
    {answer : Response} (hresponded : (http3 ctx).responded text up inbound = some answer) :
    (http3 ctx).reply text up inbound = some { answer with
      headers := routeHeaders entry (sanitiseResponseHeaders answer.headers) } := by
  obtain ⟨out, hsent, hrespond⟩ := Option.bind_eq_some_iff.1 hresponded
  obtain ⟨host, hhost, hsent⟩ := Option.bind_eq_some_iff.1 hsent
  rw [h, Option.bind_some] at hsent
  obtain ⟨uri, huri, hsent⟩ := Option.bind_eq_some_iff.1 hsent
  rw [Option.ite_none_right_eq_some, accepts_http3_iff] at hsent
  obtain ⟨⟨hmethod, hcomplete, hfits⟩, hout⟩ := hsent
  rw [route, hhost, Option.bind_some] at h
  rw [← Option.some.inj hout] at hrespond
  simp only [conn, handling, bodyOf] at hrespond
  rw [reply, H3Context.handleStream, hhost]
  simp only [h, if_neg hmethod, huri, collectH3RequestBody_nil, if_neg (Nat.not_lt.2 hfits),
    hcomplete, if_true, hrespond]

/-- What a backend would answer to this request makes a difference to the reply. -/
def Frontend.Asks (up : Upstream) (inbound : Inbound) (frontend : Frontend) (out : Outgoing) :
    Prop :=
  ∃ answer other : Option Response,
    frontend.reply text { up with respond := Function.update up.respond out answer } inbound ≠
      frontend.reply text { up with respond := Function.update up.respond out other } inbound

/--
Over HTTP/3 a backend is asked when the request is routed, is no CONNECT, has a
URI at the backend, and its body has arrived whole and within the limit; it is
asked one request, with the body in one piece.
-/
theorem asks_http3_iff {ctx : H3Context} {out : Outgoing} :
    (http3 ctx).Asks text up inbound out ↔
      ∃ host entry uri, extractHost inbound.toRequest = some host ∧
        ctx.routes.lookupHost (String.ofList host) = some entry ∧ inbound.method ≠ .connect ∧
        buildUpstreamUri up inbound.pathAndQuery entry.target = some uri ∧
        inbound.body.chunks.flatten.length ≤ ctx.requestBodyLimit ∧
        inbound.body.complete = true ∧
        out = outgoingTo text ⟨ctx.peerAddr, true⟩ .normal inbound host
          ⟨[inbound.body.chunks.flatten], true⟩ uri := by
  have hlibrary : ∀ respond, buildUpstreamUri { up with respond := respond } =
      buildUpstreamUri up := fun _ => rfl
  have hcollect : ∀ bytes, collectH3RequestBody ctx.requestBodyLimit inbound.body.complete
      inbound.body.chunks [] = .bytes bytes ↔
        inbound.body.chunks.flatten.length ≤ ctx.requestBodyLimit ∧
          inbound.body.complete = true ∧ inbound.body.chunks.flatten = bytes := by
    grind [collectH3RequestBody_nil]
  simp only [Asks, reply, H3Context.handleStream, hlibrary]
  constructor
  · rintro ⟨answer, other, hdiffer⟩
    -- on every other way through the handler both replies are the same
    by_contra hnone
    refine hdiffer ?_
    split <;> try rfl
    rename_i host hhost
    split <;> try rfl
    rename_i entry hentry
    split <;> try rfl
    rename_i hmethod
    split <;> try rfl
    rename_i uri huri
    split <;> try rfl
    rename_i bytes hbytes
    obtain ⟨hfits, hcomplete, rfl⟩ := (hcollect bytes).1 hbytes
    have hother : outgoingTo text ⟨ctx.peerAddr, true⟩ .normal inbound host
        ⟨[inbound.body.chunks.flatten], true⟩ uri ≠ out := fun hout => hnone
      ⟨host, entry, uri, hhost, hentry, hmethod, huri, hfits, hcomplete, hout.symm⟩
    rw [Function.update_of_ne hother, Function.update_of_ne hother]
  · rintro ⟨host, entry, uri, hhost, hentry, hmethod, huri, hfits, hcomplete, rfl⟩
    refine ⟨none, some ⟨200, ⟨[]⟩, .empty⟩, ?_⟩
    simp only [hhost, hentry, if_neg hmethod, huri, (hcollect _).2 ⟨hfits, hcomplete, rfl⟩,
      Function.update_self]
    simp [sendShortResponse]

end

def backendLibrary : Library :=
  { Library.plain with
    urlHostStr := fun _ => some "10.0.0.7"
    urlPortOrKnownDefault := fun _ => some 8080 }

def backendThat (respond : Outgoing → Option Response) : Upstream :=
  ⟨backendLibrary, fun _ _ => true, respond⟩

def getRequest (http11 : Bool) (authority : Option Text) (headers : HeaderMap) : Inbound where
  http11 := http11
  authority := authority
  headers := headers
  method := .other "GET".toList
  pathAndQuery := some ['/']
  body := .empty

def tlsFrontend (routes : List HttpRoute) : Frontend :=
  .tls ⟨⟨⟨.v4 0, 50000⟩, true⟩, none, RouteTable.build routes httpsFrontendName, false⟩

def h3Frontend (routes : List HttpRoute) : Frontend :=
  .http3 ⟨RouteTable.build routes httpsFrontendName, ⟨.v4 0, 50000⟩, 1024⟩

def companionFrontend (routes : List HttpRoute) : Frontend :=
  .companion ⟨∅, RouteTable.build routes httpsFrontendName, some fun _ => true⟩ ⟨.v4 0, 50000⟩

end Yggdrasil.Proxy
