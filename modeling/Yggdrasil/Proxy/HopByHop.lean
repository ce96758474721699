import Yggdrasil.Proxy.Forward

/-!
# Hop-by-hop fields

RFC 7230 names eight fields that concern one connection only, and lets a
`Connection` field nominate more.  The proxy strips seven of the eight, and the
nominated fields of those `Connection` values that are visible ASCII, `Host`
among them.
-/

namespace Yggdrasil.Proxy

open Foundation
open HeaderName

def keepAlive : HeaderName := ⟨"keep-alive".toList, by decide⟩

def rfcHopByHop : List HeaderName :=
  [connection, keepAlive, proxyAuthenticate, proxyAuthorization, te, trailer, transferEncoding,
    upgrade]

def isOws (c : Char) : Bool := c == ' ' || c == '\t'

def trimOws (text : Text) : Text := (text.dropWhile isOws).rdropWhile isOws

def HeaderValue.latin1 (value : HeaderValue) : Text :=
  value.bytes.map (fun byte => Char.ofNat byte.toNat)

def optionName (token : Text) : Option HeaderName :=
  if Text.toAsciiLowercase token = "close".toList then none else HeaderName.fromBytes token

def nominatedBy (value : HeaderValue) : List HeaderName :=
  (value.latin1.splitOn ',').filterMap (fun token => optionName (trimOws token))

def nominated (headers : HeaderMap) : List HeaderName :=
  (headers.getAll connection).flatMap nominatedBy

structure ExactlyStripped (headers : HeaderMap) : Prop where
  hopByHop : ∀ name ∈ rfcHopByHop, (sanitiseRequestHeaders headers).getAll name = []
  nominated : ∀ name ∈ nominated headers, (sanitiseRequestHeaders headers).getAll name = []
  host : (sanitiseRequestHeaders headers).getAll host = headers.getAll host
  kept : ∀ name, name ∉ rfcHopByHop → name ∉ Proxy.nominated headers → name ∉ untrustedForwarding →
    (sanitiseRequestHeaders headers).getAll name = headers.getAll name

def stripped (headers : HeaderMap) : List HeaderName :=
  connectionTokens headers ++ (hopByHopHeaders ++ untrustedForwarding)

theorem getAll_sanitiseRequestHeaders (headers : HeaderMap) (name : HeaderName) :
    (sanitiseRequestHeaders headers).getAll name =
      if name ∈ stripped headers then [] else headers.getAll name := by
  rw [sanitiseRequestHeaders, stripUntrustedForwarding, stripHopByHop]
  simp only [MultiMap.getAll_removeAll, stripped, List.mem_append]
  split_ifs <;> simp_all

theorem getAll_sanitise_eq_nil_iff (headers : HeaderMap) (name : HeaderName) :
    (sanitiseRequestHeaders headers).getAll name = [] ↔
      name ∈ stripped headers ∨ headers.getAll name = [] := by
  rw [getAll_sanitiseRequestHeaders]
  split_ifs with h
  · simp [h]
  · simp [h]

theorem toStr_eq_some_iff {value : HeaderValue} {text : Text} :
    value.toStr = some text ↔ value.bytes.all isVisibleAscii = true ∧ value.latin1 = text := by
  unfold HeaderValue.toStr HeaderValue.latin1
  split_ifs with h
  · simp [h]
  · simp [h]

theorem isWhitespace_of_visible : ∀ n < 127, (32 ≤ n ∨ n = 9) →
    Text.isWhitespace (Char.ofNat n) = isOws (Char.ofNat n) := by
  decide

theorem trim_eq_trimOws {text : Text} (h : ∀ c ∈ text, Text.isWhitespace c = isOws c) :
    Text.trim text = trimOws text := by
  unfold Text.trim trimOws List.rdropWhile
  rw [Text.dropWhile_congr h]
  congr 1
  refine Text.dropWhile_congr fun c hc => h c ?_
  exact (List.dropWhile_sublist isOws).subset (List.mem_reverse.1 hc)

variable {token : Text} {name : HeaderName} {headers : HeaderMap}

theorem trim_of_visible {value : HeaderValue} (hvisible : value.bytes.all isVisibleAscii = true)
    (htoken : token ∈ value.latin1.splitOn ',') : Text.trim token = trimOws token := by
  refine trim_eq_trimOws fun c hc => ?_
  obtain ⟨byte, hbyte, rfl⟩ := List.mem_map.1 (Text.mem_of_mem_splitOn htoken hc)
  have hrange := List.all_eq_true.1 hvisible byte hbyte
  simp only [isVisibleAscii, Bool.or_eq_true, Bool.and_eq_true, decide_eq_true_eq, beq_iff_eq]
    at hrange
  exact isWhitespace_of_visible byte.toNat (by omega) (by omega)

theorem fromBytes_eq_keepAlive_iff (h : HeaderName.fromBytes token = some name) :
    name = keepAlive ↔ Text.toAsciiLowercase token = "keep-alive".toList := by
  rw [← fromBytes_eq_some_iff.1 h]
  constructor
  · rintro rfl
    rfl
  · exact fun htext => HeaderName.ext_text htext

theorem proxyOption_eq_some_iff :
    (if Text.toAsciiLowercase token ∈ ["close".toList, "keep-alive".toList] then none
        else HeaderName.fromBytes token) = some name ↔
      optionName token = some name ∧ name ≠ keepAlive := by
  simp only [optionName, List.mem_cons, List.not_mem_nil, or_false, Option.ite_none_left_eq_some,
    not_or]
  constructor
  · rintro ⟨⟨hclose, hkeep⟩, hname⟩
    exact ⟨⟨hclose, hname⟩, fun heq => hkeep ((fromBytes_eq_keepAlive_iff hname).1 heq)⟩
  · rintro ⟨⟨hclose, hname⟩, hne⟩
    exact ⟨⟨hclose, fun hkeep => hne ((fromBytes_eq_keepAlive_iff hname).2 hkeep)⟩, hname⟩

theorem mem_connectionTokens :
    name ∈ connectionTokens headers ↔ name ≠ keepAlive ∧
      ∃ value ∈ headers.getAll connection, value.toStr ≠ none ∧ name ∈ nominatedBy value := by
  simp only [connectionTokens, List.mem_filterMap, List.mem_flatMap, proxyOption_eq_some_iff,
    nominatedBy]
  constructor
  · rintro ⟨token, ⟨text, ⟨value, hvalue, htext⟩, htoken⟩, hname, hne⟩
    obtain ⟨hvisible, rfl⟩ := toStr_eq_some_iff.1 htext
    rw [trim_of_visible hvisible htoken] at hname
    exact ⟨hne, value, hvalue, by rw [htext]; simp, token, htoken, hname⟩
  · rintro ⟨hne, value, hvalue, hreadable, token, htoken, hname⟩
    obtain ⟨text, htext⟩ := Option.ne_none_iff_exists'.1 hreadable
    obtain ⟨hvisible, rfl⟩ := toStr_eq_some_iff.1 htext
    rw [← trim_of_visible hvisible htoken] at hname
    exact ⟨token, ⟨value.latin1, ⟨value, hvalue, htext⟩, htoken⟩, hname, hne⟩

theorem mem_nominated_of_mem_connectionTokens
    (h : name ∈ connectionTokens headers) : name ∈ nominated headers := by
  obtain ⟨-, value, hvalue, -, hname⟩ := mem_connectionTokens.1 h
  exact List.mem_flatMap.2 ⟨value, hvalue, hname⟩

theorem mem_hopByHopHeaders_iff :
    name ∈ hopByHopHeaders ↔ name ∈ rfcHopByHop ∧ name ≠ keepAlive := by
  have hforth : ∀ name ∈ hopByHopHeaders, name ∈ rfcHopByHop ∧ name ≠ keepAlive := by decide
  have hback : ∀ name ∈ rfcHopByHop, name ≠ keepAlive → name ∈ hopByHopHeaders := by decide
  exact ⟨hforth name, fun h => hback name h.1 h.2⟩

theorem getAll_sanitise_of_plain (hhop : name ∉ rfcHopByHop) (hnominated : name ∉ nominated headers)
    (hforwarding : name ∉ untrustedForwarding) :
    (sanitiseRequestHeaders headers).getAll name = headers.getAll name := by
  rw [getAll_sanitiseRequestHeaders, if_neg]
  simp only [stripped, List.mem_append, not_or]
  exact ⟨fun h => hnominated (mem_nominated_of_mem_connectionTokens h),
    fun h => hhop (mem_hopByHopHeaders_iff.1 h).1, hforwarding⟩

theorem keepAlive_notMem_stripped (headers : HeaderMap) : keepAlive ∉ stripped headers := by
  simp only [stripped, List.mem_append, not_or, mem_connectionTokens, mem_hopByHopHeaders_iff]
  exact ⟨fun h => h.1 rfl, fun h => h.2 rfl, by decide⟩

theorem host_mem_stripped_iff (headers : HeaderMap) :
    host ∈ stripped headers ↔ host ∈ connectionTokens headers := by
  have hrest : host ∉ hopByHopHeaders ++ untrustedForwarding := by decide
  rw [stripped, List.mem_append]
  exact or_iff_left hrest

/--
Stripping is exact for a request without `Keep-Alive` whose `Connection` fields
are readable as far as they nominate a field of the request, and do not
nominate its `Host`.
-/
theorem exactlyStripped_iff (headers : HeaderMap) :
    ExactlyStripped headers ↔
      headers.getAll keepAlive = [] ∧
      (host ∈ connectionTokens headers → headers.getAll host = []) ∧
      ∀ value ∈ headers.getAll connection, value.toStr = none →
        ∀ name ∈ nominatedBy value, name ∈ stripped headers ∨ headers.getAll name = [] := by
  constructor
  · rintro ⟨hhop, hnominated, hhost, -⟩
    refine ⟨?_, fun htoken => ?_, fun value hvalue _ name hname => ?_⟩
    · have hgone := (getAll_sanitise_eq_nil_iff _ _).1 (hhop keepAlive (by decide))
      exact hgone.resolve_left (keepAlive_notMem_stripped headers)
    · rw [← hhost, getAll_sanitiseRequestHeaders, if_pos ((host_mem_stripped_iff headers).2 htoken)]
    · exact (getAll_sanitise_eq_nil_iff _ _).1
        (hnominated name (List.mem_flatMap.2 ⟨value, hvalue, hname⟩))
  · rintro ⟨hkeep, hhost, hunreadable⟩
    refine ⟨fun name hname => ?_, fun name hname => ?_, ?_, fun _ => getAll_sanitise_of_plain⟩
    · rw [getAll_sanitise_eq_nil_iff]
      by_cases hne : name = keepAlive
      · exact .inr (hne ▸ hkeep)
      · refine .inl (List.mem_append_right _ (List.mem_append_left _ ?_))
        exact mem_hopByHopHeaders_iff.2 ⟨hname, hne⟩
    · rw [getAll_sanitise_eq_nil_iff]
      obtain ⟨value, hvalue, hby⟩ := List.mem_flatMap.1 hname
      by_cases hreadable : value.toStr = none
      · exact hunreadable value hvalue hreadable name hby
      · by_cases hne : name = keepAlive
        · exact .inr (hne ▸ hkeep)
        · exact .inl (List.mem_append_left _
            (mem_connectionTokens.2 ⟨hne, value, hvalue, hreadable, hby⟩))
    · rw [getAll_sanitiseRequestHeaders]
      split
      · rename_i hmem
        exact (hhost ((host_mem_stripped_iff headers).1 hmem)).symm
      · rfl

def fieldValue (text : String) : HeaderValue :=
  (HeaderValue.fromStr text.toList).getD ⟨[], rfl⟩

def xHop : HeaderName := ⟨"x-hop".toList, by decide⟩

def hopRequest (fields : List (HeaderName × String)) : HeaderMap :=
  ⟨fields.map (fun field => (field.1, fieldValue field.2))⟩

theorem stripping_inexact :
    (sanitiseRequestHeaders (hopRequest [(keepAlive, "timeout=5")])).getAll keepAlive ≠ [] ∧
      (sanitiseRequestHeaders
        (hopRequest [(host, "a.test"), (connection, "host")])).getAll host = [] ∧
      xHop ∈ nominated (hopRequest [(connection, "x-hop, é"), (xHop, "1")]) ∧
      (sanitiseRequestHeaders
        (hopRequest [(connection, "x-hop, é"), (xHop, "1")])).getAll xHop ≠ [] := by
  decide

theorem stripping_exact_of_readable :
    ExactlyStripped (hopRequest [(host, "a.test"), (connection, "close, X-Hop"), (xHop, "1")]) :=
  (exactlyStripped_iff _).2 ⟨by decide, by decide, by decide⟩

end Yggdrasil.Proxy
