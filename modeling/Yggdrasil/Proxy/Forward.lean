import Yggdrasil.Foundation.StdAddr
import Yggdrasil.Foundation.MultiMap

/-!
# Header rewriting of forwarded requests

What a request says about its own origin is dropped and written anew from the
connection.  A normal request loses its hop-by-hop fields and whatever its
`Connection` field nominates; a WebSocket handshake keeps `Upgrade` and
`Connection`.
-/

namespace Yggdrasil.Proxy

open Foundation

/-- Letters are stored in lower case. -/
def isNameChar (c : Char) : Bool :=
  Text.isAsciiDigit c || ('a' ≤ c && c ≤ 'z') ||
    c.toNat ∈ [33, 35, 36, 37, 38, 39, 42, 43, 45, 46, 94, 95, 96, 124, 126]

def maxHeaderNameLen : Nat := 65535

def isHeaderName (text : Text) : Bool :=
  text ≠ [] && decide (text.length ≤ maxHeaderNameLen) && text.all isNameChar

structure HeaderName where
  text : Text
  valid : isHeaderName text = true
  deriving DecidableEq

def HeaderName.fromBytes (text : Text) : Option HeaderName :=
  let text := Text.toAsciiLowercase text
  if h : isHeaderName text = true then some ⟨text, h⟩ else none

theorem HeaderName.ext_text {name other : HeaderName} (h : name.text = other.text) :
    name = other := by
  obtain ⟨text, hvalid⟩ := name
  obtain ⟨text', hvalid'⟩ := other
  subst h
  rfl

theorem fromBytes_eq_some_iff {token : Text} {name : HeaderName} :
    HeaderName.fromBytes token = some name ↔ name.text = Text.toAsciiLowercase token := by
  simp only [HeaderName.fromBytes, Option.dite_none_right_eq_some, Option.some.injEq]
  constructor
  · rintro ⟨hvalid, rfl⟩
    rfl
  · intro htext
    exact ⟨htext ▸ name.valid, HeaderName.ext_text htext.symm⟩

def isValueByte (byte : UInt8) : Bool := (32 ≤ byte.toNat && byte.toNat != 127) || byte.toNat == 9

theorem isValueByte_ofNat {n : Nat} (hlow : 32 ≤ n) (hhigh : n < 127) :
    isValueByte (UInt8.ofNat n) = true := by
  have hbyte : (UInt8.ofNat n).toNat = n := by
    rw [UInt8.toNat_ofNat', Nat.mod_eq_of_lt (by omega)]
  simp only [isValueByte, hbyte, Bool.or_eq_true, Bool.and_eq_true, decide_eq_true_eq, bne_iff_ne]
  omega

def isVisibleAscii (byte : UInt8) : Bool :=
  (32 ≤ byte.toNat && byte.toNat < 127) || byte.toNat == 9

structure HeaderValue where
  bytes : Bytes
  valid : bytes.all isValueByte = true
  deriving DecidableEq

namespace HeaderValue

def fromStr (text : Text) : Option HeaderValue :=
  let bytes := text.flatMap String.utf8EncodeChar
  if h : bytes.all isValueByte = true then some ⟨bytes, h⟩ else none

def toStr (value : HeaderValue) : Option Text :=
  if value.bytes.all isVisibleAscii then
    some (value.bytes.map (fun byte => Char.ofNat byte.toNat))
  else none

end HeaderValue

abbrev HeaderMap := MultiMap HeaderName HeaderValue

namespace HeaderName

def connection : HeaderName := ⟨"connection".toList, by decide⟩
def forwarded : HeaderName := ⟨"forwarded".toList, by decide⟩
def host : HeaderName := ⟨"host".toList, by decide⟩
def proxyAuthenticate : HeaderName := ⟨"proxy-authenticate".toList, by decide⟩
def proxyAuthorization : HeaderName := ⟨"proxy-authorization".toList, by decide⟩
def te : HeaderName := ⟨"te".toList, by decide⟩
def trailer : HeaderName := ⟨"trailer".toList, by decide⟩
def transferEncoding : HeaderName := ⟨"transfer-encoding".toList, by decide⟩
def upgrade : HeaderName := ⟨"upgrade".toList, by decide⟩
def xForwardedFor : HeaderName := ⟨"x-forwarded-for".toList, by decide⟩
def xForwardedHost : HeaderName := ⟨"x-forwarded-host".toList, by decide⟩
def xForwardedPort : HeaderName := ⟨"x-forwarded-port".toList, by decide⟩
def xForwardedProto : HeaderName := ⟨"x-forwarded-proto".toList, by decide⟩
def xForwardedProtocol : HeaderName := ⟨"x-forwarded-protocol".toList, by decide⟩
def xRealIp : HeaderName := ⟨"x-real-ip".toList, by decide⟩

end HeaderName

open HeaderName

def hopByHopHeaders : List HeaderName :=
  [connection, proxyAuthenticate, proxyAuthorization, te, trailer, transferEncoding, upgrade]

def untrustedForwarding : List HeaderName :=
  [xForwardedFor, xForwardedProto, xForwardedProtocol, xForwardedHost, xForwardedPort, xRealIp,
    forwarded]

def stripUntrustedForwarding (headers : HeaderMap) : HeaderMap :=
  headers.removeAll untrustedForwarding

def connectionTokens (headers : HeaderMap) : List HeaderName :=
  (((headers.getAll connection).filterMap HeaderValue.toStr).flatMap (List.splitOn ',')).filterMap
    fun token =>
      let token := Text.trim token
      if Text.toAsciiLowercase token ∈ ["close".toList, "keep-alive".toList] then none
      else HeaderName.fromBytes token

def stripHopByHop (headers : HeaderMap) : HeaderMap :=
  (headers.removeAll (connectionTokens headers)).removeAll hopByHopHeaders

def sanitiseRequestHeaders (headers : HeaderMap) : HeaderMap :=
  stripUntrustedForwarding (stripHopByHop headers)

def connectionUpgrades (headers : HeaderMap) : Bool :=
  (((headers.get? connection).bind HeaderValue.toStr).map fun text =>
    decide ("upgrade".toList <:+: Text.toAsciiLowercase text)).getD false

def sanitiseRequestHeadersForWebsocket (headers : HeaderMap) : HeaderMap :=
  let headers :=
    headers.removeAll [proxyAuthenticate, proxyAuthorization, te, trailer, transferEncoding]
  let headers := if connectionUpgrades headers then headers else headers.remove connection
  stripUntrustedForwarding headers

def isWebsocketUpgrade (headers : HeaderMap) : Bool :=
  let upgradeWs := (((headers.get? upgrade).bind HeaderValue.toStr).map fun text =>
    decide (Text.toAsciiLowercase text = "websocket".toList)).getD false
  upgradeWs && connectionUpgrades headers

section

variable (text : AddrText)

def injectForwarded (headers : HeaderMap) (clientIp : IpAddr) (host : Option Text)
    (scheme : Text) : HeaderMap :=
  let headers :=
    match HeaderValue.fromStr (text.format clientIp) with
    | some value => (headers.insert xForwardedFor value).insert xRealIp value
    | none => headers
  let headers :=
    match HeaderValue.fromStr scheme with
    | some value => (headers.insert xForwardedProto value).insert xForwardedProtocol value
    | none => headers
  match host with
  | none => headers
  | some host =>
      match HeaderValue.fromStr host with
      | some value => headers.insert xForwardedHost value
      | none => headers

inductive Handling where
  | normal
  | websocket
  deriving DecidableEq, Repr

def Handling.sanitise : Handling → HeaderMap → HeaderMap
  | .normal => sanitiseRequestHeaders
  | .websocket => sanitiseRequestHeadersForWebsocket

def forwardedHeaders (handling : Handling) (headers : HeaderMap) (clientIp : IpAddr)
    (host : Option Text) (scheme : Text) : HeaderMap :=
  injectForwarded text (handling.sanitise headers) clientIp host scheme

def addressFields (clientIp : IpAddr) : List (HeaderName × HeaderValue) :=
  ((HeaderValue.fromStr (text.format clientIp)).map
    (fun value => [(xForwardedFor, value), (xRealIp, value)])).getD []

omit text in
def schemeFields (scheme : Text) : List (HeaderName × HeaderValue) :=
  ((HeaderValue.fromStr scheme).map
    (fun value => [(xForwardedProto, value), (xForwardedProtocol, value)])).getD []

omit text in
def hostFields (host : Option Text) : List (HeaderName × HeaderValue) :=
  ((host.bind HeaderValue.fromStr).map (fun value => [(xForwardedHost, value)])).getD []

def injectedFields (clientIp : IpAddr) (host : Option Text) (scheme : Text) :
    List (HeaderName × HeaderValue) :=
  addressFields text clientIp ++ (schemeFields scheme ++ hostFields host)

theorem injectForwarded_eq (headers : HeaderMap) (clientIp : IpAddr) (host : Option Text)
    (scheme : Text) :
    injectForwarded text headers clientIp host scheme =
      headers.insertAll (injectedFields text clientIp host scheme) := by
  unfold injectForwarded injectedFields addressFields schemeFields hostFields MultiMap.insertAll
  cases HeaderValue.fromStr (text.format clientIp) <;> cases HeaderValue.fromStr scheme <;>
    cases host with
    | none => rfl
    | some host => cases hhost : HeaderValue.fromStr host <;> simp [hhost]

variable {name : HeaderName}

theorem getAll_sanitise (handling : Handling) (headers : HeaderMap)
    (h : name ∈ untrustedForwarding) : (handling.sanitise headers).getAll name = [] := by
  cases handling with
  | normal => exact (MultiMap.getAll_removeAll _ _ _).trans (if_pos h)
  | websocket => exact (MultiMap.getAll_removeAll _ _ _).trans (if_pos h)

theorem getAll_forwardedHeaders (handling : Handling) (headers : HeaderMap) (clientIp : IpAddr)
    (host : Option Text) (scheme : Text) (h : name ∈ untrustedForwarding) :
    (forwardedHeaders text handling headers clientIp host scheme).getAll name =
      ((⟨[]⟩ : HeaderMap).insertAll (injectedFields text clientIp host scheme)).getAll name := by
  rw [forwardedHeaders, injectForwarded_eq]
  exact MultiMap.getAll_insertAll_congr (getAll_sanitise handling headers h) _

theorem name_mem_of_optional {value : Option HeaderValue} {names : List HeaderName}
    (h : name ∈ (((value.map fun value => names.map fun name => (name, value)).getD []).map
      Prod.fst)) : name ∈ names := by
  cases value with
  | none => cases h
  | some value =>
      rw [Option.map_some, Option.getD_some, List.map_map] at h
      simpa using h

theorem name_mem_of_originFields {host : Option Text} {scheme : Text}
    (h : name ∈ (schemeFields scheme ++ hostFields host).map Prod.fst) :
    name ∈ [xForwardedProto, xForwardedProtocol] ++ [xForwardedHost] := by
  rw [List.map_append, List.mem_append] at h
  exact List.mem_append.2 (h.imp name_mem_of_optional name_mem_of_optional)

theorem name_mem_of_injectedFields {clientIp : IpAddr} {host : Option Text} {scheme : Text}
    (h : name ∈ (injectedFields text clientIp host scheme).map Prod.fst) :
    name ∈ [xForwardedFor, xRealIp] ++ ([xForwardedProto, xForwardedProtocol] ++ [xForwardedHost]) := by
  rw [injectedFields, List.map_append, List.mem_append] at h
  exact List.mem_append.2 (h.imp name_mem_of_optional name_mem_of_originFields)

/--
Nothing of the inbound fields shows in the forwarding fields of the request
that goes to the backend, and none of them stands there twice.
-/
theorem forwarding_fields_noninterference (first second : Handling) (headers headers' : HeaderMap)
    (clientIp : IpAddr) (host : Option Text) (scheme : Text) :
    (∀ name ∈ [xForwardedFor, xRealIp, xForwardedProto, xForwardedProtocol, xForwardedHost],
      (forwardedHeaders text first headers clientIp host scheme).getAll name =
          (forwardedHeaders text second headers' clientIp host scheme).getAll name ∧
        ((forwardedHeaders text first headers clientIp host scheme).getAll name).length ≤ 1) ∧
    ∀ name ∈ [xForwardedPort, forwarded],
      (forwardedHeaders text first headers clientIp host scheme).getAll name = [] := by
  constructor
  · intro name hname
    have hmem : name ∈ untrustedForwarding := by
      revert name
      decide
    rw [getAll_forwardedHeaders text first headers clientIp host scheme hmem,
      getAll_forwardedHeaders text second headers' clientIp host scheme hmem]
    exact ⟨rfl, MultiMap.length_getAll_insertAll_le (by simp [MultiMap.getAll]) _⟩
  · intro name hname
    have hmem : name ∈ untrustedForwarding := by
      revert name
      decide
    have hnot : name ∉ (injectedFields text clientIp host scheme).map Prod.fst := by
      have hnames : ∀ name ∈ [xForwardedPort, forwarded], name ∉ [xForwardedFor, xRealIp] ++
          ([xForwardedProto, xForwardedProtocol] ++ [xForwardedHost]) := by decide
      exact fun h => hnames name hname (name_mem_of_injectedFields text h)
    rw [getAll_forwardedHeaders text first headers clientIp host scheme hmem,
      MultiMap.getAll_insertAll_of_notMem _ hnot]
    rfl

theorem utf8_of_printable {chars : Text} (h : ∀ c ∈ chars, 32 < c.toNat ∧ c.toNat < 127) :
    chars.flatMap String.utf8EncodeChar = chars.map (fun c => UInt8.ofNat c.toNat) :=
  Text.utf8_of_ascii fun c hc => (h c hc).2.trans (by decide)

theorem toStr_fromStr {chars : Text} (h : ∀ c ∈ chars, 32 < c.toNat ∧ c.toNat < 127) :
    ∃ value, HeaderValue.fromStr chars = some value ∧ value.toStr = some chars := by
  have hbyte : ∀ c ∈ chars, (UInt8.ofNat c.toNat).toNat = c.toNat := by
    intro c hc
    rw [UInt8.toNat_ofNat', Nat.mod_eq_of_lt (by have := h c hc; omega)]
  have hvalid : (chars.flatMap String.utf8EncodeChar).all isValueByte = true := by
    rw [utf8_of_printable h, List.all_map, List.all_eq_true]
    intro c hc
    exact isValueByte_ofNat (h c hc).1.le (h c hc).2
  refine ⟨⟨_, hvalid⟩, dif_pos hvalid, ?_⟩
  have hvisible : (chars.flatMap String.utf8EncodeChar).all isVisibleAscii = true := by
    rw [utf8_of_printable h, List.all_map, List.all_eq_true]
    intro c hc
    have hc' := h c hc
    simp only [isVisibleAscii, Function.comp_apply, hbyte c hc]
    simp only [Bool.or_eq_true, Bool.and_eq_true, decide_eq_true_eq]
    omega
  rw [HeaderValue.toStr, if_pos hvisible]
  change some ((chars.flatMap String.utf8EncodeChar).map _) = _
  rw [utf8_of_printable h, List.map_map]
  congr 1
  refine (List.map_congr_left fun c hc => ?_).trans (List.map_id _)
  rw [Function.comp_apply, hbyte c hc, Char.ofNat_toNat]
  rfl

theorem fromStr_format_inj {ip ip' : IpAddr}
    (h : (HeaderValue.fromStr (text.format ip)).toList =
      (HeaderValue.fromStr (text.format ip')).toList) : ip = ip' := by
  obtain ⟨value, hvalue, hread⟩ := toStr_fromStr (text.format_printable ip)
  obtain ⟨value', hvalue', hread'⟩ := toStr_fromStr (text.format_printable ip')
  rw [hvalue, hvalue', Option.toList_some, Option.toList_some, List.singleton_inj] at h
  rw [h, hread', Option.some.injEq] at hread
  exact text.format_injective hread.symm

theorem getAll_address (handling : Handling) (headers : HeaderMap) (clientIp : IpAddr)
    (host : Option Text) (scheme : Text) (hname : name ∈ [xForwardedFor, xRealIp]) :
    (forwardedHeaders text handling headers clientIp host scheme).getAll name =
      (HeaderValue.fromStr (text.format clientIp)).toList := by
  obtain ⟨value, hvalue, -⟩ := toStr_fromStr (text.format_printable clientIp)
  have hmem : name ∈ untrustedForwarding := by
    revert name
    decide
  have hnot : name ∉ (schemeFields scheme ++ hostFields host).map Prod.fst := by
    have hnames : ∀ name ∈ [xForwardedFor, xRealIp],
        name ∉ [xForwardedProto, xForwardedProtocol] ++ [xForwardedHost] := by decide
    exact fun h => hnames name hname (name_mem_of_originFields h)
  rw [getAll_forwardedHeaders text handling headers clientIp host scheme hmem, injectedFields,
    MultiMap.insertAll_append, MultiMap.getAll_insertAll_of_notMem _ hnot, addressFields, hvalue,
    Option.toList_some]
  rcases List.mem_pair.1 hname with rfl | rfl
  · have hne : xForwardedFor ≠ xRealIp := by decide
    exact (MultiMap.getAll_insert_of_ne _ hne _).trans (MultiMap.getAll_insert_self _ _ _)
  · exact MultiMap.getAll_insert_self _ _ _

structure Request where
  http11 : Bool
  authority : Option Text
  headers : HeaderMap

def extractHost (request : Request) : Option Text :=
  request.authority <|> (request.headers.get? HeaderName.host).bind HeaderValue.toStr

structure ConnContext where
  clientAddr : SocketAddr
  tls : Bool

def ConnContext.forwardedScheme (ctx : ConnContext) : Text :=
  if ctx.tls then "https".toList else "http".toList

def forwardRequest (ctx : ConnContext) (request : Request) : Option HeaderMap :=
  (extractHost request).map fun host =>
    let handling :=
      if request.http11 && isWebsocketUpgrade request.headers then Handling.websocket else .normal
    forwardedHeaders text handling request.headers ctx.clientAddr.ip (some host)
      ctx.forwardedScheme

end

end Yggdrasil.Proxy
