import Yggdrasil.Proxy.Exchange

/-!
# Static response headers

A route may configure headers for its responses.  The TLS frontend stamps them
on whatever it answers, the HTTP/3 frontend on what a backend answered, and the
companion on nothing.  A name that is too long is skipped, and of two names that
differ in case only the later one in the map is kept.
-/

namespace Yggdrasil.Proxy

open Foundation Ratatoskr
open HeaderName

def CarriesHeader (resp : Response) (header : String × String) : Prop :=
  ∃ field ∈ staticField header, resp.headers.getAll field.1 = [field.2]

instance (resp : Response) (header : String × String) : Decidable (CarriesHeader resp header) :=
  inferInstanceAs (Decidable (∃ field ∈ staticField header, _))

def Stamped (headers : List (String × String)) (resp : Response) : Prop :=
  ∀ header ∈ headers, CarriesHeader resp header

instance (headers : List (String × String)) (resp : Response) :
    Decidable (Stamped headers resp) :=
  inferInstanceAs (Decidable (∀ header ∈ headers, _))

structure Stampable (headers : List (String × String)) : Prop where
  short : ∀ header ∈ headers, header.1.toList.length ≤ maxHeaderNameLen
  agree : ∀ header ∈ headers, ∀ other ∈ headers,
    toAsciiLowercase header.1 = toAsciiLowercase other.1 → header.2 = other.2

structure Checked (header : String × String) : Prop where
  nonempty : header.1 ≠ ""
  token : header.1.toList.all isTokenByte = true
  unreserved : reservedStaticHeader header.1 = false
  visible : header.2.toList.all isFieldValueByte = true

theorem checked_of_validated {lib : Library} {ruleName : String} {route : HttpRoute}
    (h : validateHttpRoute lib ruleName route = .ok ()) :
    ∀ header ∈ route.headers, Checked header := by
  simp only [validateHttpRoute, require_bind_ok_iff, forEach_ok_iff] at h
  obtain ⟨-, -, -, -, -, hheaders⟩ := h
  intro header hheader
  have hchecks := hheaders header hheader
  simp only [validateStaticHeader, require_bind_ok_iff, require_ok_iff] at hchecks
  obtain ⟨hne, htoken, hfree, hvalue⟩ := hchecks
  exact ⟨hne, htoken, by simpa using hfree, hvalue⟩

theorem isNameChar_asciiLower {c : Char} (h : isTokenByte c = true) :
    isNameChar (Text.asciiLower c) = true := by
  rw [isTokenByte, Bool.or_eq_true] at h
  rcases h with hmark | halnum
  · have hmarks : "!#$%&'*+-.^_`|~".toList.all (fun c => isNameChar (Text.asciiLower c)) =
        true := by decide
    exact List.all_eq_true.1 hmarks c (by simpa using hmark)
  · simp only [Text.isAsciiAlphanumeric, Bool.or_eq_true] at halnum
    unfold Text.asciiLower
    split
    · rename_i hupper
      have hlow : 65 ≤ c.toNat := hupper.1
      have hhigh : c.toNat ≤ 90 := hupper.2
      have hvalue := toNat_lowered c.toNat (by omega) hlow
      have hletter : 'a' ≤ Char.ofNat (c.toNat + 32) ∧ Char.ofNat (c.toNat + 32) ≤ 'z' := by
        constructor
        · show 97 ≤ (Char.ofNat (c.toNat + 32)).toNat
          omega
        · show (Char.ofNat (c.toNat + 32)).toNat ≤ 122
          omega
      simp [isNameChar, hletter]
    · rename_i hupper
      rcases halnum with (hdigit | hletter) | hcapital
      · simp [isNameChar, hdigit]
      · simp only [isNameChar, hletter, Bool.or_true, Bool.true_or]
      · exact absurd (by simpa using hcapital) hupper

section

variable {header other : String × String}

theorem exists_fromBytes_iff (h : Checked header) :
    (∃ name, HeaderName.fromBytes header.1.toList = some name) ↔
      header.1.toList.length ≤ maxHeaderNameLen := by
  have hne : header.1.toList ≠ [] := by
    intro hnil
    exact h.nonempty (String.toList_eq_nil_iff.1 hnil)
  have hchars : (Text.toAsciiLowercase header.1.toList).all isNameChar = true := by
    rw [Text.toAsciiLowercase, List.all_map, List.all_eq_true]
    intro c hc
    exact isNameChar_asciiLower (List.all_eq_true.1 h.token c hc)
  have hvalid : isHeaderName (Text.toAsciiLowercase header.1.toList) = true ↔
      header.1.toList.length ≤ maxHeaderNameLen := by
    rw [isHeaderName, hchars]
    simp [Text.toAsciiLowercase, hne]
  rw [← hvalid]
  constructor
  · rintro ⟨name, hname⟩
    rw [← fromBytes_eq_some_iff.1 hname]
    exact name.valid
  · intro hok
    exact ⟨⟨_, hok⟩, fromBytes_eq_some_iff.2 rfl⟩

theorem exists_fromStr (h : Checked header) :
    ∃ value, HeaderValue.fromStr header.2.toList = some value := by
  have hascii : ∀ c ∈ header.2.toList,
      c.toNat < 128 ∧ isValueByte (UInt8.ofNat c.toNat) = true := by
    intro c hc
    have hvisible := List.all_eq_true.1 h.visible c hc
    rw [isFieldValueByte, Bool.or_eq_true, Bool.and_eq_true, beq_iff_eq, decide_eq_true_eq,
      decide_eq_true_eq] at hvisible
    rcases hvisible with rfl | hrange
    · decide
    · exact ⟨by omega, isValueByte_ofNat (by omega) (by omega)⟩
  have hvalid : (header.2.toList.flatMap String.utf8EncodeChar).all isValueByte = true := by
    rw [Text.utf8_of_ascii fun c hc => (hascii c hc).1, List.all_map, List.all_eq_true]
    exact fun c hc => (hascii c hc).2
  exact ⟨⟨_, hvalid⟩, dif_pos hvalid⟩

theorem fromStr_injective {chars chars' : Text} {value : HeaderValue}
    (h : HeaderValue.fromStr chars = some value) (h' : HeaderValue.fromStr chars' = some value) :
    chars = chars' := by
  have hbytes : ∀ {chars : Text}, HeaderValue.fromStr chars = some value →
      value.bytes = chars.flatMap String.utf8EncodeChar := by
    intro chars hchars
    unfold HeaderValue.fromStr at hchars
    simp only at hchars
    split at hchars
    · rw [← Option.some.inj hchars]
    · cases hchars
  have hread := Text.fromUTF8?_utf8 chars
  rw [← hbytes h, hbytes h', Text.fromUTF8?_utf8] at hread
  exact String.ofList_injective (Option.some.inj hread).symm

variable {field : HeaderName × HeaderValue}

theorem staticField_eq_some_iff :
    staticField header = some field ↔ HeaderName.fromBytes header.1.toList = some field.1 ∧
      HeaderValue.fromStr header.2.toList = some field.2 := by
  simp only [staticField, Option.bind_eq_some_iff, Option.map_eq_some_iff]
  constructor
  · rintro ⟨name, hname, value, hvalue, rfl⟩
    exact ⟨hname, hvalue⟩
  · rintro ⟨hname, hvalue⟩
    exact ⟨field.1, hname, field.2, hvalue, rfl⟩

theorem name_ne_of_reserved (h : Checked header) (hfield : staticField header = some field)
    {name : HeaderName} (hname : String.ofList name.text ∈ reservedHeaders) : field.1 ≠ name := by
  rintro rfl
  have hfree := h.unreserved
  rw [reservedStaticHeader, toAsciiLowercase,
    ← fromBytes_eq_some_iff.1 (staticField_eq_some_iff.1 hfield).1] at hfree
  simp [hname] at hfree

end

section

variable {headers : List (String × String)} (hchecked : ∀ header ∈ headers, Checked header)

include hchecked in
theorem stampable_of_stamped {resp : Response} (h : Stamped headers resp) : Stampable headers := by
  constructor
  · intro header hheader
    obtain ⟨field, hfield, -⟩ := h header hheader
    exact (exists_fromBytes_iff (hchecked header hheader)).1
      ⟨field.1, (staticField_eq_some_iff.1 hfield).1⟩
  · intro header hheader other hother hnames
    obtain ⟨field, hfield, hcarried⟩ := h header hheader
    obtain ⟨field', hfield', hcarried'⟩ := h other hother
    rw [Option.mem_def, staticField_eq_some_iff] at hfield hfield'
    have hsame : field.1 = field'.1 := by
      apply HeaderName.ext_text
      rw [fromBytes_eq_some_iff.1 hfield.1, fromBytes_eq_some_iff.1 hfield'.1]
      exact String.ofList_injective hnames
    rw [hsame, hcarried'] at hcarried
    have hvalue : field'.2 = field.2 := List.singleton_inj.1 hcarried
    rw [hvalue] at hfield'
    exact String.toList_injective (fromStr_injective hfield.2 hfield'.2)

include hchecked in
theorem stamped_of_stampable (h : Stampable headers) (resp : Response) (before : HeaderMap)
    (hresp : ∀ header ∈ headers, ∀ field ∈ staticField header,
      resp.headers.getAll field.1 = (applyStaticResponseHeaders before headers).getAll field.1) :
    Stamped headers resp := by
  intro header hheader
  obtain ⟨name, hname⟩ :=
    (exists_fromBytes_iff (hchecked header hheader)).2 (h.short header hheader)
  obtain ⟨value, hvalue⟩ := exists_fromStr (hchecked header hheader)
  have hfield : staticField header = some (name, value) :=
    staticField_eq_some_iff.2 ⟨hname, hvalue⟩
  refine ⟨_, hfield, ?_⟩
  rw [hresp header hheader _ hfield, applyStaticResponseHeaders_eq]
  apply MultiMap.getAll_insertAll_of_agree before
  · exact List.mem_filterMap.2 ⟨header, hheader, hfield⟩
  -- two headers that become one field agree on its value
  · intro field hmem hsame
    obtain ⟨other, hother, hother'⟩ := List.mem_filterMap.1 hmem
    rw [staticField_eq_some_iff, hsame] at hother'
    have hnames : toAsciiLowercase header.1 = toAsciiLowercase other.1 := by
      rw [toAsciiLowercase, toAsciiLowercase, ← fromBytes_eq_some_iff.1 hname,
        ← fromBytes_eq_some_iff.1 hother'.1]
    rw [h.agree header hheader other hother hnames, hother'.2] at hvalue
    exact Option.some.inj hvalue

theorem getAll_insertText_of_ne (fields : HeaderMap) {name other : HeaderName} (h : name ≠ other)
    (text : Text) : (insertText fields other text).getAll name = fields.getAll name := by
  unfold insertText
  split
  · exact MultiMap.getAll_insert_of_ne fields h _
  · rfl

theorem getAll_maybeInjectAltSvc (ctx : FrontendContext) (resp : Response) {name : HeaderName}
    (h : name ≠ altSvc) :
    (maybeInjectAltSvc ctx resp).headers.getAll name = resp.headers.getAll name := by
  unfold maybeInjectAltSvc
  split
  · rfl
  · split
    · exact getAll_insertText_of_ne _ h _
    · rfl

include hchecked in
theorem stamped_routeHeaders_iff {entry : RouteEntry} (hentry : entry.headers = headers)
    (resp : Response) :
    Stamped headers { resp with headers := routeHeaders entry resp.headers } ↔
      Stampable headers := by
  constructor
  · exact stampable_of_stamped hchecked
  · intro h
    refine stamped_of_stampable hchecked h _ (maybeInjectHsts resp.headers entry.hsts) ?_
    intro header hheader field hfield
    rw [routeHeaders, hentry]

include hchecked in
theorem stamped_routedResponse_iff {entry : RouteEntry} (hentry : entry.headers = headers)
    (ctx : FrontendContext) (answer : Option Response) :
    Stamped headers (routedResponse ctx entry answer) ↔ Stampable headers := by
  constructor
  · exact stampable_of_stamped hchecked
  · intro h
    refine stamped_of_stampable hchecked h _
      (maybeInjectHsts (answer.getD (shortResponse 502 "")).headers entry.hsts) ?_
    intro header hheader field hfield
    have hne : field.1 ≠ altSvc :=
      name_ne_of_reserved (hchecked header hheader) hfield (by decide)
    rw [routedResponse, getAll_maybeInjectAltSvc ctx _ hne, routeHeaders, hentry]

end

/-- The TLS frontend stamps whatever it answers, the HTTP/3 frontend what a backend responded. -/
def Frontend.Stamps (text : AddrText) (up : Upstream) (inbound : Inbound) : Frontend → Prop
  | .tls _ => True
  | .http3 ctx => ((Frontend.http3 ctx).responded text up inbound).isSome
  | .companion _ _ => False

def noindexRoute : HttpRoute :=
  ⟨"foo.test", "http://10.0.0.7:8080", none, [("X-Robots-Tag", "noindex")]⟩

def clashingRoute : HttpRoute :=
  ⟨"foo.test", "http://10.0.0.7:8080", none,
    [("X-Frame-Options", "DENY"), ("x-frame-options", "SAMEORIGIN")]⟩

theorem fromParts_noindexRoute :
    RuleSet.fromParts backendLibrary [] [noindexRoute] = .ok (.ofRoutes [noindexRoute]) :=
  RuleSet.fromParts_ofRoutes (List.forall_mem_singleton.2 (by decide)) (by decide)

theorem fromParts_clashingRoute :
    RuleSet.fromParts backendLibrary [] [clashingRoute] = .ok (.ofRoutes [clashingRoute]) :=
  RuleSet.fromParts_ofRoutes (List.forall_mem_singleton.2 (by decide)) (by decide)

def getFoo : Inbound := getRequest false (some "foo.test".toList) ⟨[]⟩

structure Unstamped (route : HttpRoute) (frontend : Frontend)
    (respond : Outgoing → Option Response) : Prop where
  accepted : RuleSet.fromParts backendLibrary [] [route] = .ok (.ofRoutes [route])
  matched : frontend.route getFoo = some (RouteEntry.of httpsFrontendName route)
  missing : ∃ resp, frontend.reply .std (backendThat respond) getFoo = some resp ∧
    ¬ Stamped route.headers resp

end Yggdrasil.Proxy
