import Yggdrasil.Proxy.HttpsReconcile

/-!
# Spellings of a route's host

A host may be asked for in any letter case, with a final dot and with a port.
Table lookups strip the dots at the end of the value before the port, the
companion strips the port before it compares, and a route may itself be written
with the dot.  Two accepted routes can thus be for one name.
-/

namespace Yggdrasil.Proxy

open Foundation Ratatoskr

def routeName (route : HttpRoute) : Text :=
  if route.hostname.toList.getLast? = some '.' then route.hostname.toList.dropLast
  else route.hostname.toList

def dotted (route : HttpRoute) : Bool := route.hostname.toList.getLast? = some '.'

def finalDot (dot : Bool) : Text := if dot then ['.'] else []

def keyOf (name : Text) (dot : Bool) : String :=
  toAsciiLowercase (String.ofList (name ++ finalDot dot))

structure PlainName (name : Text) : Prop where
  nonempty : name ≠ []
  noPort : ':' ∉ name
  noFinalDot : name.getLast? ≠ some '.'

theorem toList_hostname (route : HttpRoute) :
    route.hostname.toList = routeName route ++ finalDot (dotted route) := by
  unfold routeName dotted finalDot
  by_cases hdot : route.hostname.toList.getLast? = some '.'
  · rw [if_pos hdot, if_pos (decide_eq_true hdot)]
    exact (List.dropLast_append_getLast? _ hdot).symm
  · rw [if_neg hdot, if_neg (by simpa using hdot), List.append_nil]

theorem key_eq_keyOf (route : HttpRoute) : route.key = keyOf (routeName route) (dotted route) := by
  rw [keyOf, ← toList_hostname, String.ofList_toList]
  rfl

section

variable {name : Text}

theorem plain_of_valid {hostname : String} (h : isValidDnsHostname hostname = true)
    (hname : name = if hostname.toList.getLast? = some '.' then hostname.toList.dropLast
      else hostname.toList) : PlainName name := by
  have hcolon : ':' ∉ name := by
    intro hmem
    have hmem' : ':' ∈ hostname.toList := by
      rw [hname] at hmem
      split_ifs at hmem
      · exact List.dropLast_subset _ hmem
      · exact hmem
    exact absurd (isValidDnsHostname_chars h hmem') (by decide)
  simp only [isValidDnsHostname, ← hname, Bool.and_eq_true, decide_eq_true_eq,
    List.all_eq_true] at h
  obtain ⟨⟨hne, -⟩, hlabels⟩ := h
  refine ⟨hne, hcolon, ?_⟩
  · intro hdot
    -- a final dot would leave an empty label behind it
    have hsplit : name.splitOn '.' = name.dropLast.splitOn '.' ++ [[]] := by
      nth_rewrite 1 [← List.dropLast_append_getLast? _ hdot]
      rw [List.splitOn_append_cons_self]
      rfl
    have hempty := hlabels [] (by rw [hsplit]; simp)
    exact absurd hempty (by decide)

theorem plain_of_validated {lib : Library} {route : HttpRoute} {ruleName : String}
    (h : validateHttpRoute lib ruleName route = .ok ()) : PlainName (routeName route) := by
  simp only [validateHttpRoute, require_bind_ok_iff] at h
  exact plain_of_valid h.2.1 rfl

theorem eq_of_asciiLower {c d : Char} (hd : d.toNat < 97) (h : Text.asciiLower c = d) : c = d := by
  unfold Text.asciiLower at h
  split at h
  · rename_i hupper
    have hlow : 65 ≤ c.toNat := hupper.1
    have hhigh : c.toNat ≤ 90 := hupper.2
    have hvalue := toNat_lowered c.toNat (by omega) hlow
    rw [h] at hvalue
    omega
  · exact h

theorem PlainName.congr {letters : Text} (hplain : PlainName name)
    (h : Text.toAsciiLowercase letters = Text.toAsciiLowercase name) : PlainName letters := by
  have hlower : ∀ c : Char, Text.asciiLower c = c → c.toNat < 97 →
      (c ∈ letters → c ∈ name) ∧ (letters.getLast? = some c → name.getLast? = some c) := by
    intro c hc hsmall
    constructor
    · intro hmem
      have hmapped : c ∈ Text.toAsciiLowercase name := by
        rw [← h, Text.toAsciiLowercase]
        exact List.mem_map.2 ⟨c, hmem, hc⟩
      obtain ⟨c', hmem', heq⟩ := List.mem_map.1 hmapped
      rwa [← eq_of_asciiLower hsmall heq]
    · intro hlast
      have hmapped : (Text.toAsciiLowercase name).getLast? = some c := by
        rw [← h, Text.toAsciiLowercase, List.getLast?_map, hlast, Option.map_some, hc]
      rw [Text.toAsciiLowercase, List.getLast?_map, Option.map_eq_some_iff] at hmapped
      obtain ⟨c', hlast', heq⟩ := hmapped
      rw [hlast', eq_of_asciiLower hsmall heq]
  refine ⟨?_, ?_, ?_⟩
  · rintro rfl
    exact hplain.nonempty (List.map_eq_nil_iff.1 h.symm)
  · exact fun hmem => hplain.noPort ((hlower ':' (by decide) (by decide)).1 hmem)
  · exact fun hlast => hplain.noFinalDot ((hlower '.' (by decide) (by decide)).2 hlast)

theorem toList_keyOf (dot : Bool) :
    (keyOf name dot).toList = Text.toAsciiLowercase name ++ finalDot dot := by
  have hdot : Text.toAsciiLowercase (finalDot dot) = finalDot dot := by
    cases dot <;> decide
  rw [keyOf, toAsciiLowercase, String.toList_ofList, String.toList_ofList, Text.toAsciiLowercase,
    List.map_append]
  exact congrArg _ hdot

theorem keyOf_congr {letters : Text}
    (h : Text.toAsciiLowercase letters = Text.toAsciiLowercase name) (dot : Bool) :
    keyOf letters dot = keyOf name dot := by
  apply String.toList_injective
  rw [toList_keyOf, toList_keyOf, h]

theorem PlainName.lower (hplain : PlainName name) : PlainName (Text.toAsciiLowercase name) := by
  apply hplain.congr
  rw [Text.toAsciiLowercase, Text.toAsciiLowercase, List.map_map]
  exact List.map_congr_left fun c _ => asciiLower_idem c

theorem rdropWhile_dot (hplain : PlainName name) (dot : Bool) :
    (name ++ finalDot dot).rdropWhile (fun c => c == '.') = name := by
  have hlast : name.rdropWhile (fun c => c == '.') = name := by
    rw [List.rdropWhile_eq_self_iff]
    intro hne heq
    refine hplain.noFinalDot ?_
    rw [List.getLast?_eq_some_getLast hne, beq_iff_eq.1 heq]
  cases dot with
  | false => rw [finalDot, if_neg (by decide), List.append_nil, hlast]
  | true => rw [finalDot, if_pos rfl, List.rdropWhile_concat_pos _ _ _ (by decide), hlast]

theorem keyOf_eq_iff {other : Text} (hname : PlainName name) (hother : PlainName other)
    {dot dot' : Bool} :
    keyOf other dot' = keyOf name dot ↔
      Text.toAsciiLowercase other = Text.toAsciiLowercase name ∧ dot' = dot := by
  constructor
  · intro h
    have htext : Text.toAsciiLowercase other ++ finalDot dot' =
        Text.toAsciiLowercase name ++ finalDot dot := by
      rw [← toList_keyOf, ← toList_keyOf, h]
    have hnames : Text.toAsciiLowercase other = Text.toAsciiLowercase name := by
      rw [← rdropWhile_dot hother.lower dot', htext, rdropWhile_dot hname.lower dot]
    rw [hnames] at htext
    have hdots := List.append_cancel_left htext
    refine ⟨hnames, ?_⟩
    revert hdots
    cases dot' <;> cases dot <;> decide
  · rintro ⟨hnames, rfl⟩
    exact keyOf_congr hnames dot'

end

/-! ## Spellings -/

structure Spelling (name : Text) where
  letters : Text
  letters_eq : Text.toAsciiLowercase letters = Text.toAsciiLowercase name
  dot : Bool
  port : Option Text
  port_digits : ∀ digits ∈ port, digits ≠ [] ∧ digits.all Text.isAsciiDigit = true

namespace Spelling

variable {name : Text}

def portText (spelling : Spelling name) : Text :=
  match spelling.port with
  | none => []
  | some digits => ':' :: digits

def host (spelling : Spelling name) : String :=
  String.ofList (spelling.letters ++ finalDot spelling.dot ++ spelling.portText)

theorem bareHost_host (hplain : PlainName name) (spelling : Spelling name) :
    RedirectListener.bareHost spelling.host =
      String.ofList (spelling.letters ++ finalDot spelling.dot) := by
  rw [RedirectListener.bareHost, host, String.toList_ofList, portText]
  cases hport : spelling.port with
  | none =>
      have hcolon : ':' ∉ spelling.letters ++ finalDot spelling.dot := by
        rw [List.mem_append, not_or]
        refine ⟨(hplain.congr spelling.letters_eq).noPort, ?_⟩
        cases spelling.dot <;> decide
      simp only [List.append_nil]
      rw [Text.rsplitOnce_of_notMem hcolon]
      rfl
  | some digits =>
      have hcolon : ':' ∉ digits := by
        intro hmem
        have hdigit := List.all_eq_true.1 (spelling.port_digits digits hport).2 ':' hmem
        exact absurd hdigit (by decide)
      simp only
      rw [Text.rsplitOnce_append hcolon]
      rfl

theorem toAsciiLowercase_bareHost (hplain : PlainName name) (spelling : Spelling name) :
    toAsciiLowercase (RedirectListener.bareHost spelling.host) = keyOf name spelling.dot := by
  rw [bareHost_host hplain, ← keyOf_congr spelling.letters_eq, keyOf]

theorem normalize_host (hplain : PlainName name) (spelling : Spelling name) :
    RouteTable.normalize spelling.host = keyOf name (spelling.dot && spelling.port.isSome) := by
  have hletters := hplain.congr spelling.letters_eq
  rw [← keyOf_congr spelling.letters_eq]
  cases hport : spelling.port with
  | none =>
      have htext : spelling.host.toList.rdropWhile (fun c => c == '.') = spelling.letters := by
        simp only [host, portText, hport, String.toList_ofList, List.append_nil]
        exact rdropWhile_dot hletters spelling.dot
      simp only [RouteTable.normalize, htext, Text.rsplitOnce_of_notMem hletters.noPort]
      simp [keyOf, finalDot]
  | some digits =>
      obtain ⟨hne, hdigits⟩ := spelling.port_digits digits hport
      have htext : spelling.host.toList.rdropWhile (fun c => c == '.') = spelling.host.toList := by
        rw [List.rdropWhile_eq_self_iff]
        intro hlist heq
        have hlast : digits.getLast hne = '.' := by
          simpa [host, portText, hport, hne] using heq
        have hdigit := List.all_eq_true.1 hdigits _ (List.getLast_mem hne)
        rw [hlast] at hdigit
        exact absurd hdigit (by decide)
      have hbare := bareHost_host hplain spelling
      rw [RedirectListener.bareHost] at hbare
      simp only [RouteTable.normalize, htext, hbare]
      simp [keyOf]

theorem normalize_bareHost (hplain : PlainName name) (spelling : Spelling name) :
    RouteTable.normalize (RedirectListener.bareHost spelling.host) = keyOf name false := by
  have hletters := hplain.congr spelling.letters_eq
  rw [bareHost_host hplain, ← keyOf_congr spelling.letters_eq]
  simp only [RouteTable.normalize, String.toList_ofList, rdropWhile_dot hletters,
    Text.rsplitOnce_of_notMem hletters.noPort]
  simp [keyOf, finalDot]

end Spelling

def Twins (route twin : HttpRoute) : Prop :=
  Text.toAsciiLowercase (routeName twin) = Text.toAsciiLowercase (routeName route) ∧
    dotted twin = !dotted route

instance (route twin : HttpRoute) : Decidable (Twins route twin) :=
  inferInstanceAs (Decidable (_ ∧ _))

def companionOf (lanCidrs : Option (IpAddr → Bool)) (certLess : List String)
    (routes : List HttpRoute) : RedirectListener :=
  HttpsSide.claimListener (.spawn lanCidrs) (loadedHosts certLess routes)
    (certLessRoutes certLess routes)

section

variable {routes : List HttpRoute} (hplain : ∀ route ∈ routes, PlainName (routeName route))
  (hnodup : (hostsOf routes).Nodup) {route : HttpRoute} (hroute : route ∈ routes)
  (p : HttpRoute → Bool)

include hplain hnodup hroute in
theorem key_eq_keyOf_iff {other : HttpRoute} (hother : other ∈ routes) (dot : Bool) :
    other.key = keyOf (routeName route) dot ↔
      dotted route = dot ∧ other = route ∨ dotted route = !dot ∧ Twins route other := by
  rw [key_eq_keyOf other, keyOf_eq_iff (hplain route hroute) (hplain other hother), Twins]
  constructor
  · rintro ⟨hname, hdot⟩
    by_cases hsame : dotted route = dot
    · refine .inl ⟨hsame, ?_⟩
      apply List.inj_on_of_nodup_map hnodup hother hroute
      rw [key_eq_keyOf other, key_eq_keyOf route, hdot, hsame]
      exact keyOf_congr hname dot
    · have hopposite : dotted route = !dot := Bool.eq_not_iff.2 hsame
      exact .inr ⟨hopposite, hname, by rw [hdot, hopposite, Bool.not_not]⟩
  · rintro (⟨hdot, rfl⟩ | ⟨hdot, hname, hother⟩)
    · exact ⟨rfl, hdot⟩
    · exact ⟨hname, by rw [hother, hdot, Bool.not_not]⟩

include hplain hnodup hroute in
theorem found_iff (hp : p route = true) {Q : HttpRoute → Prop} (hQ : Q route) (dot : Bool) :
    (∃ other ∈ routes.filter p, other.key = keyOf (routeName route) dot ∧ Q other) ↔
      dotted route = dot ∨ ∃ twin ∈ routes.filter p, Twins route twin ∧ Q twin := by
  constructor
  · rintro ⟨other, hother, hkey, hholds⟩
    have hmem := (List.mem_filter.1 hother).1
    rcases (key_eq_keyOf_iff hplain hnodup hroute hmem dot).1 hkey with ⟨hdot, -⟩ | ⟨-, htwin⟩
    · exact .inl hdot
    · exact .inr ⟨other, hother, htwin, hholds⟩
  · intro h
    by_cases hdot : dotted route = dot
    · exact ⟨route, List.mem_filter.2 ⟨hroute, hp⟩,
        (key_eq_keyOf_iff hplain hnodup hroute hroute dot).2 (.inl ⟨hdot, rfl⟩), hQ⟩
    · obtain ⟨twin, htwin, htwins, hholds⟩ := h.resolve_left hdot
      have hopposite : dotted route = !dot := Bool.eq_not_iff.2 hdot
      have hmem := (List.mem_filter.1 htwin).1
      exact ⟨twin, htwin,
        (key_eq_keyOf_iff hplain hnodup hroute hmem dot).2 (.inr ⟨hopposite, htwins⟩), hholds⟩

include hplain hnodup hroute in
theorem lookupHost_iff (hp : p route = true) (ruleName : String)
    (spelling : Spelling (routeName route)) :
    (RouteTable.build (routes.filter p) ruleName).lookupHost spelling.host =
        some (RouteEntry.of ruleName route) ↔
      dotted route = (spelling.dot && spelling.port.isSome) ∨
        ∃ twin ∈ routes.filter p, Twins route twin ∧
          RouteEntry.of ruleName twin = RouteEntry.of ruleName route := by
  rw [← found_iff hplain hnodup hroute p hp (Q := fun other =>
      RouteEntry.of ruleName other = RouteEntry.of ruleName route) rfl,
    RouteTable.lookupHost, Spelling.normalize_host (hplain route hroute),
    lookup_build (nodup_hostsOf_filter p hnodup), Option.map_eq_some_iff]
  simp only [findKey_eq_some_iff HttpRoute.key (nodup_hostsOf_filter p hnodup), and_assoc]

/-! ## The companion's answers -/

variable (lanCidrs : Option (IpAddr → Bool)) (certLess : List String)

theorem plaintextRoutes_companionOf :
    (companionOf lanCidrs certLess routes).plaintextRoutes =
      RouteTable.build (routes.filter (isCertLess certLess)) httpsFrontendName := by
  rw [companionOf, HttpsSide.claimListener, foldl_registerHost]
  rfl

theorem lanCidrs_companionOf : (companionOf lanCidrs certLess routes).lanCidrs = lanCidrs := by
  rw [companionOf, HttpsSide.claimListener, foldl_registerHost]
  rfl

include hnodup in
theorem contains_companionOf_hosts (host : String) :
    (companionOf lanCidrs certLess routes).hosts.contains host = true ↔
      ∃ other ∈ routes.filter (fun route => !isCertLess certLess route),
        other.key = toAsciiLowercase host := by
  have hhosts : (companionOf lanCidrs certLess routes).hosts.Exactly
      (loadedHosts certLess routes ++ []) := by
    rw [companionOf, HttpsSide.claimListener, foldl_registerHost]
    refine exactly_foldl_add exactly_empty ?_ (nodup_hostsOf_filter _ hnodup) (by simp)
    intro key hkey
    obtain ⟨other, -, rfl⟩ := List.mem_map.1 hkey
    exact toAsciiLowercase_key other
  rw [HostSet.contains, Option.isSome_iff_exists, ← mem_iff_lookup, mem_of_exactly hhosts,
    List.append_nil, loadedHosts, hostsOf, List.mem_map]

variable {name : Text}

theorem serveRequest_single (hname : PlainName name) (spelling : Spelling name)
    (target ruleName : String) :
    serveRequest (RouteTable.build
        [⟨RedirectListener.bareHost spelling.host, target, none, []⟩] ruleName)
        (some spelling.host) =
      if spelling.dot = true → spelling.port.isSome = true then
        .forward (keyOf name (spelling.dot && spelling.port.isSome)) target
      else .notFound := by
  have hkey : (⟨RedirectListener.bareHost spelling.host, target, none, []⟩ : HttpRoute).key =
      keyOf name spelling.dot :=
    spelling.toAsciiLowercase_bareHost hname
  have hlookup : (RouteTable.build
      [⟨RedirectListener.bareHost spelling.host, target, none, []⟩] ruleName).lookupHost
        spelling.host =
      (findKey HttpRoute.key [⟨RedirectListener.bareHost spelling.host, target, none, []⟩]
        (keyOf name (spelling.dot && spelling.port.isSome))).map (RouteEntry.of ruleName) := by
    rw [RouteTable.lookupHost, spelling.normalize_host hname, lookup_build (by simp [hostsOf])]
  have hsame : keyOf name spelling.dot = keyOf name (spelling.dot && spelling.port.isSome) ↔
      (spelling.dot = true → spelling.port.isSome = true) := by
    rw [keyOf_eq_iff hname hname]
    cases spelling.dot <;> simp
  rw [findKey, List.find?_singleton, hkey] at hlookup
  by_cases hdot : spelling.dot = true → spelling.port.isSome = true
  · rw [if_pos (by simpa using hsame.2 hdot)] at hlookup
    simp only [serveRequest, hlookup, spelling.normalize_host hname]
    rw [if_pos hdot]
    rfl
  · rw [if_neg (by simpa using mt hsame.1 hdot)] at hlookup
    simp only [serveRequest, hlookup]
    rw [if_neg hdot]
    rfl

theorem dispatch_of_found {listener : RedirectListener} (hname : PlainName name)
    (spelling : Spelling name) {entry : RouteEntry} {peer : IpAddr} (path : String)
    (hfound : listener.plaintextRoutes.lookup (keyOf name false) = some entry) :
    listener.dispatch peer (some spelling.host) path =
      if listener.lanAllows peer = true ∧ (spelling.dot = true → spelling.port.isSome = true) then
        .forward (keyOf name (spelling.dot && spelling.port.isSome)) entry.target
      else .notFound := by
  rw [← spelling.normalize_bareHost hname] at hfound
  simp only [RedirectListener.dispatch, RouteTable.lookupHost, hfound,
    serveRequest_single hname spelling]
  by_cases hlan : listener.lanAllows peer = true
  · simp [hlan]
  · simp [hlan]

theorem dispatch_of_notFound {listener : RedirectListener} (hname : PlainName name)
    (spelling : Spelling name) (peer : IpAddr) (path : String)
    (hnone : listener.plaintextRoutes.lookup (keyOf name false) = none) :
    listener.dispatch peer (some spelling.host) path =
      if listener.hosts.contains (RedirectListener.bareHost spelling.host) = true then
        .redirect ("https://" ++ RedirectListener.bareHost spelling.host ++ path)
      else .notFound := by
  rw [← spelling.normalize_bareHost hname] at hnone
  simp only [RedirectListener.dispatch, RouteTable.lookupHost, hnone]

include hplain hnodup hroute in
theorem proxied_iff (hcertLess : isCertLess certLess route = true)
    (spelling : Spelling (routeName route)) {peer : IpAddr} (path : String)
    (hlan : (companionOf lanCidrs certLess routes).lanAllows peer = true) :
    (∃ key, (companionOf lanCidrs certLess routes).dispatch peer (some spelling.host) path =
        .forward key route.target) ↔
      (spelling.dot = true → spelling.port.isSome = true) ∧
      (dotted route = false ∨ ∃ twin ∈ certLessRoutes certLess routes,
        Twins route twin ∧ twin.target = route.target) := by
  have hname := hplain route hroute
  have hkeys := nodup_hostsOf_filter (isCertLess certLess) hnodup
  rw [certLessRoutes, ← found_iff hplain hnodup hroute (isCertLess certLess) hcertLess
    (Q := fun other => other.target = route.target) rfl]
  have hlookup := lookup_build hkeys httpsFrontendName (keyOf (routeName route) false)
  rw [← plaintextRoutes_companionOf lanCidrs certLess] at hlookup
  cases hfound : findKey HttpRoute.key (routes.filter (isCertLess certLess))
      (keyOf (routeName route) false) with
  | none =>
      rw [hfound, Option.map_none] at hlookup
      rw [dispatch_of_notFound hname spelling peer path hlookup]
      constructor
      · rintro ⟨key, hforward⟩
        split at hforward
        · cases hforward
        · cases hforward
      · rintro ⟨-, other, hother, hkey, -⟩
        rw [findKey_eq_none_iff] at hfound
        exact absurd (List.mem_map.2 ⟨other, hother, hkey⟩) hfound
  | some other =>
      rw [hfound, Option.map_some] at hlookup
      rw [dispatch_of_found hname spelling path hlookup]
      simp only [hlan, true_and]
      have hother := (findKey_eq_some_iff HttpRoute.key hkeys).1 hfound
      constructor
      · rintro ⟨key, hforward⟩
        split at hforward
        · rename_i hdot
          exact ⟨hdot, other, hother.1, hother.2, (Answer.forward.inj hforward).2⟩
        · cases hforward
      · rintro ⟨hdot, other', hother', hkey, htarget⟩
        have hsame := (findKey_eq_some_iff HttpRoute.key hkeys).2 ⟨hother', hkey⟩
        rw [hfound] at hsame
        rw [if_pos hdot, ← htarget, ← Option.some.inj hsame]
        exact ⟨_, rfl⟩

include hplain hnodup hroute in
theorem redirected_iff (hcertified : isCertLess certLess route = false)
    (spelling : Spelling (routeName route)) (peer : IpAddr) (path : String) :
    (companionOf lanCidrs certLess routes).dispatch peer (some spelling.host) path =
        .redirect ("https://" ++ RedirectListener.bareHost spelling.host ++ path) ↔
      (dotted route = spelling.dot ∨
        ∃ twin ∈ routes.filter (fun route => !isCertLess certLess route), Twins route twin) ∧
      ¬ ∃ twin ∈ certLessRoutes certLess routes, Twins route twin ∧ dotted twin = false := by
  have hname := hplain route hroute
  have hkeys := nodup_hostsOf_filter (isCertLess certLess) hnodup
  have hlookup := lookup_build hkeys httpsFrontendName (keyOf (routeName route) false)
  rw [← plaintextRoutes_companionOf lanCidrs certLess] at hlookup
  have hfree : findKey HttpRoute.key (routes.filter (isCertLess certLess))
        (keyOf (routeName route) false) = none ↔
      ¬ ∃ twin ∈ certLessRoutes certLess routes, Twins route twin ∧ dotted twin = false := by
    rw [findKey_eq_none_iff, List.mem_map, certLessRoutes]
    refine not_congr (exists_congr fun other => and_congr_right fun hother => ?_)
    obtain ⟨hmem, hless⟩ := List.mem_filter.1 hother
    rw [key_eq_keyOf_iff hplain hnodup hroute hmem]
    constructor
    · rintro (⟨-, rfl⟩ | ⟨hdot, htwin⟩)
      -- the route itself has a certificate, so only its twin can be served in plaintext
      · rw [hcertified] at hless
        cases hless
      · exact ⟨htwin, by rw [htwin.2, hdot]; rfl⟩
    · rintro ⟨htwin, hdot⟩
      exact .inr ⟨by rw [← Bool.not_not (dotted route), ← htwin.2, hdot], htwin⟩
  have hhosts : (companionOf lanCidrs certLess routes).hosts.contains
        (RedirectListener.bareHost spelling.host) = true ↔
      dotted route = spelling.dot ∨
        ∃ twin ∈ routes.filter (fun route => !isCertLess certLess route), Twins route twin := by
    rw [contains_companionOf_hosts hnodup, spelling.toAsciiLowercase_bareHost hname]
    have hiff := found_iff hplain hnodup hroute (fun route => !isCertLess certLess route)
      (by rw [hcertified]; rfl) (Q := fun _ => True) trivial spelling.dot
    simpa only [and_true] using hiff
  rw [← hfree, ← hhosts]
  cases hfound : findKey HttpRoute.key (routes.filter (isCertLess certLess))
      (keyOf (routeName route) false) with
  | none =>
      rw [hfound, Option.map_none] at hlookup
      rw [dispatch_of_notFound hname spelling peer path hlookup]
      split
      · rename_i hcontains
        exact ⟨fun _ => ⟨hcontains, rfl⟩, fun _ => rfl⟩
      · rename_i hcontains
        exact ⟨fun h => (nomatch h), fun h => absurd h.1 hcontains⟩
  | some other =>
      rw [hfound, Option.map_some] at hlookup
      rw [dispatch_of_found hname spelling path hlookup]
      split
      · exact ⟨fun h => (nomatch h), fun h => (nomatch h.2)⟩
      · exact ⟨fun h => (nomatch h), fun h => (nomatch h.2)⟩

end

/-- Where the spellings of an accepted route lead: to its entry in any table that holds it, to its
target when the companion serves it, to the redirect when it has a certificate. -/
theorem every_spelling_reaches_iff {lib : Library} {rules : List Rule} {routes : List HttpRoute}
    {set : RuleSet} (h : RuleSet.fromParts lib rules routes = .ok set) {route : HttpRoute}
    (hroute : route ∈ set.routes) (spelling : Spelling (routeName route))
    (lanCidrs : IpAddr → Bool) (certLess : List String) (path : String) :
    (∀ (ruleName : String) (p : HttpRoute → Bool), p route = true →
      ((RouteTable.build (set.routes.filter p) ruleName).lookupHost spelling.host =
          some (RouteEntry.of ruleName route) ↔
        dotted route = (spelling.dot && spelling.port.isSome) ∨
          ∃ twin ∈ set.routes.filter p, Twins route twin ∧
            RouteEntry.of ruleName twin = RouteEntry.of ruleName route)) ∧
    (isCertLess certLess route = true → ∀ peer, lanCidrs peer = true →
      ((∃ key, (companionOf (some lanCidrs) certLess set.routes).dispatch peer (some spelling.host)
          path = .forward key route.target) ↔
        (spelling.dot = true → spelling.port.isSome = true) ∧
        (dotted route = false ∨ ∃ twin ∈ certLessRoutes certLess set.routes,
          Twins route twin ∧ twin.target = route.target))) ∧
    (isCertLess certLess route = false → ∀ peer,
      ((companionOf (some lanCidrs) certLess set.routes).dispatch peer (some spelling.host) path =
          .redirect ("https://" ++ RedirectListener.bareHost spelling.host ++ path) ↔
        (dotted route = spelling.dot ∨
          ∃ twin ∈ set.routes.filter (fun route => !isCertLess certLess route),
            Twins route twin) ∧
        ¬ ∃ twin ∈ certLessRoutes certLess set.routes,
          Twins route twin ∧ dotted twin = false)) := by
  obtain ⟨-, hvalid, -, hset, hnodup⟩ := RuleSet.fromParts_ok_iff.1 h
  rw [← hset] at hvalid hnodup
  have hplain : ∀ route ∈ set.routes, PlainName (routeName route) :=
    fun route hroute => plain_of_validated (hvalid route hroute)
  refine ⟨?_, ?_, ?_⟩
  · intro ruleName p hp
    exact lookupHost_iff hplain hnodup hroute p hp ruleName spelling
  · intro hcertLess peer hlan
    refine proxied_iff hplain hnodup hroute (some lanCidrs) certLess hcertLess spelling path ?_
    rw [RedirectListener.lanAllows, lanCidrs_companionOf]
    exact hlan
  · intro hcertified peer
    exact redirected_iff hplain hnodup hroute (some lanCidrs) certLess hcertified spelling peer path

def fooRoute : HttpRoute := ⟨"foo.test", "http://10.0.0.7:8080", none, []⟩

theorem fromParts_fooRoute :
    RuleSet.fromParts Library.plain [] [fooRoute] = .ok (.ofRoutes [fooRoute]) :=
  RuleSet.fromParts_ofRoutes (List.forall_mem_singleton.2 (by decide)) (by decide)

def fooSpelling (dot : Bool) (port : Option Text)
    (h : ∀ digits ∈ port, digits ≠ [] ∧ digits.all Text.isAsciiDigit = true) :
    Spelling (routeName fooRoute) :=
  ⟨"FOO.test".toList, by decide, dot, port, h⟩

def fooWithPort (dot : Bool) : Spelling (routeName fooRoute) :=
  fooSpelling dot (some "8080".toList) (by rintro digits ⟨⟩; decide)

theorem undotted_spelling_reaches :
    (fooWithPort false).host = "FOO.test:8080" ∧
    RuleSet.fromParts Library.plain [] [fooRoute] = .ok (.ofRoutes [fooRoute]) ∧
    (RouteTable.build ([fooRoute].filter fun _ => true) httpsFrontendName).lookupHost
      (fooWithPort false).host = some (RouteEntry.of httpsFrontendName fooRoute) ∧
    (∃ key, (companionOf (some fun _ => true) ["foo.test"] [fooRoute]).dispatch (.v4 0)
      (some (fooWithPort false).host) "/" = .forward key fooRoute.target) ∧
    (companionOf (some fun _ => true) [] [fooRoute]).dispatch (.v4 0)
      (some (fooWithPort false).host) "/" =
        .redirect ("https://" ++ RedirectListener.bareHost (fooWithPort false).host ++ "/") := by
  have hreaches := fun certLess => every_spelling_reaches_iff fromParts_fooRoute
    List.mem_cons_self (fooWithPort false) (fun _ => true) certLess "/"
  refine ⟨by decide, fromParts_fooRoute, ?_, ?_, ?_⟩
  · exact ((hreaches []).1 httpsFrontendName (fun _ => true) rfl).2 (.inl (by decide))
  · exact ((hreaches ["foo.test"]).2.1 (by decide) (.v4 0) rfl).2
      ⟨fun h => (nomatch h), .inl (by decide)⟩
  · refine ((hreaches []).2.2 (by decide) (.v4 0)).2 ⟨.inl (by decide), ?_⟩
    have hnone : certLessRoutes [] (RuleSet.ofRoutes [fooRoute]).routes = [] := by decide
    rintro ⟨twin, htwin, -⟩
    rw [hnone] at htwin
    cases htwin

/-- With the dot the route is missed: by the table when a port follows, by the companion when none
does, whether the host has a certificate or not. -/
theorem dotted_spelling_unreachable :
    RuleSet.fromParts Library.plain [] [fooRoute] = .ok (.ofRoutes [fooRoute]) ∧
    (RouteTable.build [fooRoute] httpsFrontendName).lookupHost (fooWithPort true).host = none ∧
    (companionOf (some fun _ => true) ["foo.test"] [fooRoute]).dispatch (.v4 0)
      (some (fooSpelling true none (by simp)).host) "/" = .notFound ∧
    (companionOf (some fun _ => true) [] [fooRoute]).dispatch (.v4 0)
      (some (fooSpelling true none (by simp)).host) "/" = .notFound := by
  refine ⟨fromParts_fooRoute, ?_, ?_, ?_⟩
  · decide
  · decide
  · decide

end Yggdrasil.Proxy
