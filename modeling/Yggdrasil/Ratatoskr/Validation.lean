import Yggdrasil.Foundation.Check
import Yggdrasil.Foundation.StdSocketAddr
import Yggdrasil.Foundation.Text
import Yggdrasil.Ratatoskr.RuleSet

/-!
# Validation of rule files

Every rule and route is checked on its own, then names, listen addresses and
hostnames are checked to be unique over the whole set.  The URL parser and the
formatting of values in messages belong to the libraries the daemon is built on
and are a parameter.
-/

namespace Yggdrasil.Ratatoskr

open Foundation

/-- What the validation takes from the standard library and from the URL parser. -/
structure Library where
  /-- A string as the `Debug` formatter quotes it. -/
  debug : String → String
  display : SocketAddr → String
  urlScheme : String → String
  urlHostStr : String → Option String
  urlPortOrKnownDefault : String → Option UInt16

inductive ConfigError where
  | invalidRule (message : String)
  | invalidPredicate (message : String)
  | postcard
  deriving DecidableEq, Repr

def ConfigError.toString : ConfigError → String
  | invalidRule message => "invalid rule configuration: " ++ message
  | invalidPredicate message => "invalid predicate: " ++ message
  | postcard => "postcard decode error"

def Protocol.asStr : Protocol → String
  | tcp => "tcp"
  | udp => "udp"
  | https => "https"

def hasBlank (text : String) : Bool :=
  text.toList.any (fun c => Text.isWhitespace c || Text.isControl c)

def toAsciiLowercase (text : String) : String :=
  String.ofList (Text.toAsciiLowercase text.toList)

def isValidDnsLabel (label : Text) : Bool :=
  label ≠ [] && decide (label.length ≤ 63) &&
    label.head?.any Text.isAsciiAlphanumeric && label.getLast?.any Text.isAsciiAlphanumeric &&
    label.all (fun c => Text.isAsciiAlphanumeric c || c == '-')

def isValidDnsHostname (hostname : String) : Bool :=
  let text := hostname.toList
  let text := if text.getLast? = some '.' then text.dropLast else text
  text ≠ [] && decide (Text.utf8Len text ≤ 253) && (text.splitOn '.').all isValidDnsLabel

theorem isValidDnsHostname_chars {hostname : String} (h : isValidDnsHostname hostname = true)
    {c : Char} (hc : c ∈ hostname.toList) :
    Text.isAsciiAlphanumeric c = true ∨ c = '-' ∨ c = '.' := by
  by_cases hdot : c = '.'
  · exact .inr (.inr hdot)
  · have hkept : c ∈ (if hostname.toList.getLast? = some '.' then hostname.toList.dropLast
        else hostname.toList) := by
      split_ifs with hlast
      · rw [← List.dropLast_append_getLast? _ hlast, List.mem_append, List.mem_singleton] at hc
        exact hc.resolve_right hdot
      · exact hc
    simp only [isValidDnsHostname, Bool.and_eq_true, List.all_eq_true] at h
    obtain ⟨label, hlabel, hmem⟩ := Text.exists_mem_splitOn hkept hdot
    have hlabel := h.2 label hlabel
    simp only [isValidDnsLabel, Bool.and_eq_true, List.all_eq_true, Bool.or_eq_true,
      beq_iff_eq] at hlabel
    exact (hlabel.2 c hmem).imp_right .inl

inductive Target where
  | static (addr : ScopedAddr)
  | dns (host : String) (port : UInt16)
  deriving DecidableEq, Repr

section

variable (lib : Library)

def Target.parseDns (s : String) : Except String Target :=
  match Text.rsplitOnce ':' s.toList with
  | none => .error s!"target {lib.debug s}: expected \"host:port\""
  | some (host, portStr) => do
      let host := String.ofList host
      let portStr := String.ofList portStr
      require (host ≠ "") s!"target {lib.debug s}: empty host"
      match Text.parseU16 portStr.toList with
      | none => .error s!"target {lib.debug s}: port {lib.debug portStr} is not a u16"
      | some port => do
          require (port ≠ 0) s!"target {lib.debug s}: port must be non-zero"
          require (isValidDnsHostname host)
            (s!"target {lib.debug s}: host {lib.debug host} is not a valid IP literal or DNS " ++
              "name (LDH labels, no wildcards, no underscores)")
          .ok (.dns host port)

def Target.parse (s : String) : Except String Target :=
  match StdAddr.parseSocketAddr s.toList with
  | some addr => do
      require (addr.port ≠ 0) s!"target {lib.debug s}: port must be non-zero"
      .ok (.static addr)
  | none => Target.parseDns lib s

def Rule.validateTarget (rule : Rule) : Except ConfigError Unit :=
  match rule.targetPort, rule.target with
  | some _, some _ =>
      .error (.invalidRule (s!"rule {lib.debug rule.name}: set exactly one of target_port " ++
        "(relay) or target (terminal); not both"))
  | none, none =>
      .error (.invalidRule (s!"rule {lib.debug rule.name}: must set exactly one of target_port " ++
        "(relay) or target (terminal, \"host:port\")"))
  | some port, none =>
      require (port ≠ 0)
        (.invalidRule s!"rule {lib.debug rule.name}: target_port must be non-zero")
  | none, some s =>
      match Target.parse lib s with
      | .ok _ => .ok ()
      | .error detail => .error (.invalidRule s!"rule {lib.debug rule.name}: {detail}")

def Rule.validateL4 (rule : Rule) : Except ConfigError Unit := do
  rule.validateTarget lib
  require (¬(rule.target.isSome ∧ rule.proxyProtocol.isSome))
    (.invalidRule (s!"rule {lib.debug rule.name}: proxy_protocol is invalid on terminal rules " ++
      "(target is set); relay-written headers pass through verbatim"))
  match rule.protocol with
  | .tcp =>
      require (rule.idleTimeout = none)
        (.invalidRule s!"rule {lib.debug rule.name}: idle_timeout is only valid for udp rules")
  | .udp =>
      require (rule.proxyProtocol ≠ some .v1)
        (.invalidRule (s!"rule {lib.debug rule.name}: proxy_protocol = \"v1\" is invalid on udp " ++
          "rules; use \"v2\" (v1 is ASCII, designed for stream prefix)"))
  | .https => .ok ()

def Rule.validate (rule : Rule) : Except ConfigError Unit := do
  require (rule.name ≠ "") (.invalidRule "rule name is empty")
  require (!hasBlank rule.name)
    (.invalidRule
      s!"rule name {lib.debug rule.name} contains whitespace or control characters")
  require (rule.listen.port ≠ 0)
    (.invalidRule s!"rule {lib.debug rule.name}: listen port must be non-zero")
  match rule.protocol with
  | .tcp | .udp => rule.validateL4 lib
  | .https =>
      .error (.invalidRule (s!"rule {lib.debug rule.name}: protocol = \"https\" is not valid " ++
        "on `[[rule]]`; use top-level `[[route]]` blocks to declare HTTPS routes"))

def reservedHeaders : List String :=
  ["connection", "keep-alive", "proxy-authenticate", "proxy-authorization", "te", "trailer",
    "transfer-encoding", "upgrade", "strict-transport-security", "alt-svc", "x-forwarded-for",
    "x-forwarded-proto", "x-forwarded-protocol", "x-forwarded-host", "x-forwarded-port",
    "x-real-ip", "forwarded"]

def reservedStaticHeader (name : String) : Bool :=
  reservedHeaders.contains (toAsciiLowercase name)

def isTokenByte (c : Char) : Bool :=
  "!#$%&'*+-.^_`|~".toList.contains c || Text.isAsciiAlphanumeric c

def isFieldValueByte (c : Char) : Bool := c == '\t' || (0x20 ≤ c.toNat && c.toNat ≤ 0x7e)

def validateStaticHeader (ruleName hostname : String) (header : String × String) :
    Except ConfigError Unit := do
  require (header.1 ≠ "")
    (.invalidRule (s!"rule {lib.debug ruleName}: route {lib.debug hostname}: static response " ++
      "header name is empty"))
  require (header.1.toList.all isTokenByte)
    (.invalidRule (s!"rule {lib.debug ruleName}: route {lib.debug hostname}: static response " ++
      s!"header name {lib.debug header.1} contains characters not allowed in an HTTP field name"))
  require (!reservedStaticHeader header.1)
    (.invalidRule (s!"rule {lib.debug ruleName}: route {lib.debug hostname}: static response " ++
      s!"header {lib.debug header.1} is reserved (hop-by-hop, yggdrasil-owned, or " ++
      "request-only); use the dedicated field (e.g. `hsts`) or pick a different name"))
  require (header.2.toList.all isFieldValueByte)
    (.invalidRule (s!"rule {lib.debug ruleName}: route {lib.debug hostname}: static response " ++
      s!"header {lib.debug header.1} has an invalid value (must be visible ASCII, no CR / LF)"))

def validateHttpRoute (ruleName : String) (route : HttpRoute) : Except ConfigError Unit := do
  require (route.hostname ≠ "")
    (.invalidRule s!"rule {lib.debug ruleName}: route hostname is empty")
  require (isValidDnsHostname route.hostname)
    (.invalidRule (s!"rule {lib.debug ruleName}: route hostname {lib.debug route.hostname} is " ++
      "not a valid DNS name"))
  require (lib.urlScheme route.target = "http")
    (.invalidRule (s!"rule {lib.debug ruleName}: route {lib.debug route.hostname}: target URL " ++
      s!"scheme must be \"http\" (got {lib.debug (lib.urlScheme route.target)})"))
  require (lib.urlHostStr route.target ≠ none)
    (.invalidRule (s!"rule {lib.debug ruleName}: route {lib.debug route.hostname}: target URL " ++
      "is missing a host"))
  require (lib.urlPortOrKnownDefault route.target ≠ none)
    (.invalidRule (s!"rule {lib.debug ruleName}: route {lib.debug route.hostname}: target URL " ++
      "has no port and no known default for its scheme"))
  forEach (validateStaticHeader lib ruleName route.hostname) route.headers

structure RuleFile where
  rule : List Rule
  route : List HttpRoute
  deriving DecidableEq, Repr

def RuleFile.validateEach (file : RuleFile) : Except ConfigError Unit := do
  forEach (Rule.validate lib) file.rule
  forEach (validateHttpRoute lib "<route>") file.route

def checkNames (rules : List Rule) : Except ConfigError Unit :=
  distinct Rule.name
    (fun _ rule => .invalidRule s!"duplicate rule name {lib.debug rule.name} across rule files")
    rules

def checkListens (rules : List Rule) : Except ConfigError Unit :=
  distinct Rule.claim
    (fun other rule => .invalidRule
      (s!"duplicate listen address {lib.display rule.listen} for protocol " ++
        s!"{rule.protocol.asStr} (rules {lib.debug rule.name} and {lib.debug other.name})"))
    rules

def HttpRoute.key (route : HttpRoute) : String := toAsciiLowercase route.hostname

def checkHostnames (routes : List HttpRoute) : Except ConfigError Unit :=
  distinct HttpRoute.key
    (fun _ route => .invalidRule
      s!"duplicate HTTPS route hostname {lib.debug route.hostname} across rule files")
    routes

theorem Rule.bindable_of_validate {rule : Rule} (h : rule.validate lib = .ok ()) :
    rule.protocol ≠ .https ∧ rule.listen.port ≠ 0 := by
  unfold Rule.validate at h
  obtain ⟨-, h⟩ := require_bind_ok_iff.1 h
  obtain ⟨-, h⟩ := require_bind_ok_iff.1 h
  obtain ⟨hport, h⟩ := require_bind_ok_iff.1 h
  refine ⟨?_, hport⟩
  intro hhttps
  rw [hhttps] at h
  cases h

namespace RuleSet

/-- Only the checks over the whole set; rules and routes were validated one by one. -/
def fromPartsUncheckedIndividuals (rules : List Rule) (routes : List HttpRoute)
    (bindable : ∀ rule ∈ rules, rule.protocol ≠ .https ∧ rule.listen.port ≠ 0) :
    Except ConfigError RuleSet :=
  match hnames : checkNames lib rules with
  | .error e => .error e
  | .ok () =>
      match hlistens : checkListens lib rules with
      | .error e => .error e
      | .ok () =>
          match checkHostnames lib routes with
          | .error e => .error e
          | .ok () =>
              .ok ⟨rules, routes, bindable, (distinct_ok_iff _ _).1 hnames,
                (distinct_ok_iff _ _).1 hlistens⟩

def fromParts (rules : List Rule) (routes : List HttpRoute) : Except ConfigError RuleSet :=
  match hrules : forEach (Rule.validate lib) rules with
  | .error e => .error e
  | .ok () => do
      forEach (validateHttpRoute lib "<route>") routes
      fromPartsUncheckedIndividuals lib rules routes
        (fun rule hrule => Rule.bindable_of_validate lib (forEach_ok_iff.1 hrules rule hrule))

def fromRules (rules : List Rule) : Except ConfigError RuleSet :=
  match hrules : forEach (Rule.validate lib) rules with
  | .error e => .error e
  | .ok () =>
      fromPartsUncheckedIndividuals lib rules []
        (fun rule hrule => Rule.bindable_of_validate lib (forEach_ok_iff.1 hrules rule hrule))

theorem bindable_of_validateEach {files : List RuleFile}
    (h : forEach (RuleFile.validateEach lib) files = .ok ()) :
    ∀ rule ∈ files.flatMap RuleFile.rule, rule.protocol ≠ .https ∧ rule.listen.port ≠ 0 := by
  intro rule hrule
  obtain ⟨file, hfile, hmem⟩ := List.mem_flatMap.1 hrule
  obtain ⟨value, hrules, -⟩ := bind_ok_iff.1 (forEach_ok_iff.1 h file hfile)
  exact Rule.bindable_of_validate lib (forEach_ok_iff.1 hrules rule hmem)

def fromFiles (files : List RuleFile) : Except ConfigError RuleSet :=
  match hfiles : forEach (RuleFile.validateEach lib) files with
  | .error e => .error e
  | .ok () =>
      fromPartsUncheckedIndividuals lib (files.flatMap RuleFile.rule)
        (files.flatMap RuleFile.route) (bindable_of_validateEach lib hfiles)

variable {set : RuleSet} {rules : List Rule}

theorem eq_of_parts {other : RuleSet} (hrules : set.rules = other.rules)
    (hroutes : set.routes = other.routes) : set = other := by
  cases set
  cases other
  simp only at hrules hroutes
  subst hrules hroutes
  rfl

variable {lib}

theorem fromPartsUncheckedIndividuals_ok_iff {routes : List HttpRoute}
    {bindable : ∀ rule ∈ rules, rule.protocol ≠ .https ∧ rule.listen.port ≠ 0} :
    fromPartsUncheckedIndividuals lib rules routes bindable = .ok set ↔
      set.rules = rules ∧ set.routes = routes ∧ (routes.map HttpRoute.key).Nodup := by
  unfold fromPartsUncheckedIndividuals
  constructor
  · intro h
    split at h
    · cases h
    · split at h
      · cases h
      · split at h
        · cases h
        · rename_i hhosts
          cases h
          exact ⟨rfl, rfl, (distinct_ok_iff _ _).1 hhosts⟩
  · rintro ⟨hrules, hroutes, hhosts⟩
    have hnames : checkNames lib rules = .ok () :=
      (distinct_ok_iff _ _).2 (hrules ▸ set.names_nodup)
    have hlistens : checkListens lib rules = .ok () :=
      (distinct_ok_iff _ _).2 (hrules ▸ set.claims_nodup)
    split
    · rename_i e herror
      cases hnames.symm.trans herror
    · split
      · rename_i e herror
        cases hlistens.symm.trans herror
      · rw [show checkHostnames lib routes = .ok () from (distinct_ok_iff _ _).2 hhosts]
        exact congrArg Except.ok (eq_of_parts hrules.symm hroutes.symm)

theorem fromRules_ok_iff :
    fromRules lib rules = .ok set ↔
      (∀ rule ∈ rules, rule.validate lib = .ok ()) ∧ set.rules = rules ∧ set.routes = [] := by
  rw [← forEach_ok_iff]
  unfold fromRules
  split
  · rename_i e herror
    simp [herror]
  · rename_i hok
    rw [fromPartsUncheckedIndividuals_ok_iff, hok]
    simp

theorem fromParts_ok_iff {routes : List HttpRoute} :
    fromParts lib rules routes = .ok set ↔
      (∀ rule ∈ rules, rule.validate lib = .ok ()) ∧
      (∀ route ∈ routes, validateHttpRoute lib "<route>" route = .ok ()) ∧
      set.rules = rules ∧ set.routes = routes ∧ (routes.map HttpRoute.key).Nodup := by
  rw [← forEach_ok_iff, ← forEach_ok_iff]
  unfold fromParts
  split
  · rename_i e herror
    simp [herror]
  · rename_i hok
    rw [bind_ok_iff]
    constructor
    · rintro ⟨value, hroutes, h⟩
      exact ⟨hok, hroutes, fromPartsUncheckedIndividuals_ok_iff.1 h⟩
    · rintro ⟨-, hroutes, h⟩
      exact ⟨(), hroutes, fromPartsUncheckedIndividuals_ok_iff.2 h⟩

theorem fromFiles_ok_iff {files : List RuleFile} :
    fromFiles lib files = .ok set ↔
      (∀ file ∈ files, file.validateEach lib = .ok ()) ∧
      set.rules = files.flatMap RuleFile.rule ∧ set.routes = files.flatMap RuleFile.route ∧
      ((files.flatMap RuleFile.route).map HttpRoute.key).Nodup := by
  rw [← forEach_ok_iff]
  unfold fromFiles
  split
  · rename_i e herror
    simp [herror]
  · rename_i hok
    rw [fromPartsUncheckedIndividuals_ok_iff, hok]
    simp

end RuleSet

end

def Library.plain : Library where
  debug := fun text => "\"" ++ text ++ "\""
  display := fun _ => "<address>"
  urlScheme := fun _ => "http"
  urlHostStr := some
  urlPortOrKnownDefault := fun _ => some 80

theorem bindable_nil :
    ∀ rule ∈ ([] : List Rule), rule.protocol ≠ .https ∧ rule.listen.port ≠ 0 := by
  simp

theorem nodup_names_nil : (([] : List Rule).map Rule.name).Nodup := List.nodup_nil

theorem nodup_claims_nil : (([] : List Rule).map Rule.claim).Nodup := List.nodup_nil

def RuleSet.ofRoutes (routes : List HttpRoute) : RuleSet :=
  ⟨[], routes, bindable_nil, nodup_names_nil, nodup_claims_nil⟩

theorem RuleSet.fromParts_ofRoutes {lib : Library} {routes : List HttpRoute}
    (hvalid : ∀ route ∈ routes, validateHttpRoute lib "<route>" route = .ok ())
    (hnodup : (routes.map HttpRoute.key).Nodup) :
    fromParts lib [] routes = .ok (ofRoutes routes) :=
  fromParts_ok_iff.2 ⟨by simp, hvalid, rfl, rfl, hnodup⟩

end Yggdrasil.Ratatoskr
