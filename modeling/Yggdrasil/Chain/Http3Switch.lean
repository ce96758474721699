import Yggdrasil.Chain.Derive

/-!
# Switching HTTP/3 on

An HTTPS predicate reserves its port on both transports before it uses the
second one, but not the name of the second rule: a TCP or UDP predicate may
bear that name already.
-/

namespace Yggdrasil.Chain

open Foundation Ratatoskr

def withHttp3 (p : Predicate) : Predicate := { p with httpsHttp3 := true }

def switched (before : List Predicate) (p : Predicate) (after : List Predicate)
    (origin : PubKey) : PredicateSet :=
  ⟨before ++ withHttp3 p :: after, origin⟩

theorem derivedHttpsRuleName_inj {p q : Predicate} {leg : Protocol}
    (h : derivedHttpsRuleName p leg = derivedHttpsRuleName q leg) : p.name = q.name := by
  have hlist := congrArg String.toList h
  simp only [derivedHttpsRuleName, String.toList_append] at hlist
  exact String.toList_injective (List.append_cancel_right hlist)

theorem derivedHttpsRuleName_tcp_ne_udp (p q : Predicate) :
    derivedHttpsRuleName p .tcp ≠ derivedHttpsRuleName q .udp := by
  intro h
  have hlist := congrArg String.toList h
  simp only [derivedHttpsRuleName, String.toList_append] at hlist
  have hlegs := List.append_inj_right' hlist (by simp [Protocol.asStr])
  simp [Protocol.asStr] at hlegs

theorem udp_name_mem_derivedNames_iff {p q : Predicate} (hname : q.name ≠ p.name) :
    derivedHttpsRuleName p .udp ∈ derivedNames q ↔
      q.protocol ≠ .https ∧ q.name = derivedHttpsRuleName p .udp := by
  unfold derivedNames
  cases hprotocol : q.protocol with
  | tcp => simp [eq_comm]
  | udp => simp [eq_comm]
  | https =>
      refine iff_of_false (fun hmem => ?_) (fun h => h.1 rfl)
      rcases List.mem_cons.1 hmem with htcp | hudp
      · exact derivedHttpsRuleName_tcp_ne_udp q p htcp.symm
      · split at hudp
        · exact hname (derivedHttpsRuleName_inj (List.mem_singleton.1 hudp)).symm
        · cases hudp

section

variable {cfg : DeriveConfig} {before after : List Predicate} {p : Predicate} {origin : PubKey}

theorem derivedNames_off (hp : p.protocol = .https) (hoff : p.httpsHttp3 = false) :
    derivedNames p = [derivedHttpsRuleName p .tcp] := by
  simp [derivedNames, hp, hoff]

theorem derivedNames_withHttp3 (hp : p.protocol = .https) :
    derivedNames (withHttp3 p) =
      [derivedHttpsRuleName p .tcp, derivedHttpsRuleName p .udp] := by
  simp [derivedNames, withHttp3, hp, derivedHttpsRuleName]

theorem reserved_withHttp3 (p : Predicate) : reserved (withHttp3 p) = reserved p := rfl

theorem derivedRules_off (hp : p.protocol = .https) (hoff : p.httpsHttp3 = false) :
    derivedRules cfg p = [ruleFromHttpsPredicate p cfg .tcp] := by
  simp [derivedRules, hp, hoff]

theorem derivedRules_withHttp3 (hp : p.protocol = .https) :
    derivedRules cfg (withHttp3 p) =
      [ruleFromHttpsPredicate p cfg .tcp, ruleFromHttpsPredicate p cfg .udp] := by
  simp only [derivedRules, withHttp3, hp, if_true]
  rfl

theorem perm_derivedNames_switched (hp : p.protocol = .https) (hoff : p.httpsHttp3 = false) :
    ((switched before p after origin).predicates.flatMap derivedNames).Perm
      (derivedHttpsRuleName p .udp :: (before ++ p :: after).flatMap derivedNames) := by
  rw [switched, List.flatMap_append, List.flatMap_append, List.flatMap_cons, List.flatMap_cons,
    derivedNames_withHttp3 hp, derivedNames_off hp hoff]
  have hmiddle : (before.flatMap derivedNames ++ [derivedHttpsRuleName p .tcp] ++
      derivedHttpsRuleName p .udp :: after.flatMap derivedNames).Perm
      (derivedHttpsRuleName p .udp :: (before.flatMap derivedNames ++
        [derivedHttpsRuleName p .tcp] ++ after.flatMap derivedNames)) := List.perm_middle
  simpa using hmiddle

theorem flatMap_derivedRules_switched (cfg : DeriveConfig) (before after : List Predicate)
    (origin : PubKey) (hp : p.protocol = .https) (hoff : p.httpsHttp3 = false) :
    ∃ front back, (before ++ p :: after).flatMap (derivedRules cfg) = front ++ back ∧
      (switched before p after origin).predicates.flatMap (derivedRules cfg) =
        front ++ ruleFromHttpsPredicate p cfg .udp :: back := by
  refine ⟨before.flatMap (derivedRules cfg) ++ [ruleFromHttpsPredicate p cfg .tcp],
    after.flatMap (derivedRules cfg), ?_, ?_⟩
  · rw [List.flatMap_append, List.flatMap_cons, derivedRules_off hp hoff, List.append_assoc]
  · rw [switched, List.flatMap_append, List.flatMap_cons, derivedRules_withHttp3 hp,
      List.append_assoc]
    rfl

theorem derivable_switched_iff (hset : Derivable ⟨before ++ p :: after, origin⟩)
    (hp : p.protocol = .https) (hoff : p.httpsHttp3 = false) :
    Derivable (switched before p after origin) ↔
      derivedHttpsRuleName p .udp ∉ (before ++ p :: after).flatMap derivedNames := by
  have hnames : ((switched before p after origin).predicates.flatMap derivedNames).Nodup ↔
      derivedHttpsRuleName p .udp ∉ (before ++ p :: after).flatMap derivedNames := by
    rw [(perm_derivedNames_switched hp hoff).nodup_iff, List.nodup_cons]
    exact and_iff_left hset.ruleNames
  have hmem : ∀ q ∈ (switched before p after origin).predicates,
      ∃ q' ∈ before ++ p :: after, q.name = q'.name ∧ q.listenPort = q'.listenPort := by
    intro q hq
    rcases List.mem_append.1 hq with hbefore | hrest
    · exact ⟨q, List.mem_append_left _ hbefore, rfl, rfl⟩
    · rcases List.mem_cons.1 hrest with rfl | hafter
      · exact ⟨p, List.mem_append_right _ List.mem_cons_self, rfl, rfl⟩
      · exact ⟨q, List.mem_append_right _ (List.mem_cons_of_mem p hafter), rfl, rfl⟩
  rw [← hnames]
  refine ⟨fun h => h.ruleNames, fun h => ⟨?_, ?_, ?_, h, ?_⟩⟩
  · intro q hq
    obtain ⟨q', hq', hname, -⟩ := hmem q hq
    rw [hname]
    exact hset.proper q' hq'
  · intro q hq
    obtain ⟨q', hq', -, hport⟩ := hmem q hq
    rw [hport]
    exact hset.nonzero q' hq'
  · have hsame : (switched before p after origin).predicates.map Predicate.name =
        (before ++ p :: after).map Predicate.name := by
      simp [switched, withHttp3]
    rw [hsame]
    exact hset.names
  · have hsame : (switched before p after origin).predicates.flatMap reserved =
        (before ++ p :: after).flatMap reserved := by
      simp [switched, reserved_withHttp3]
    rw [hsame]
    exact hset.sockets

theorem udp_name_fresh_iff (hset : Derivable ⟨before ++ p :: after, origin⟩)
    (hp : p.protocol = .https) (hoff : p.httpsHttp3 = false) :
    derivedHttpsRuleName p .udp ∉ (before ++ p :: after).flatMap derivedNames ↔
      ∀ q ∈ before ++ after, q.protocol ≠ .https → q.name ≠ derivedHttpsRuleName p .udp := by
  have hothers : ∀ q ∈ before ++ after, q.name ≠ p.name := by
    have hnodup := hset.names
    rw [List.map_append, List.map_cons, List.nodup_middle, List.nodup_cons] at hnodup
    intro q hq hname
    apply hnodup.1
    rw [← List.map_append, ← hname]
    exact List.mem_map_of_mem hq
  have hself : derivedHttpsRuleName p .udp ∉ derivedNames p := by
    rw [derivedNames_off hp hoff, List.mem_singleton]
    exact (derivedHttpsRuleName_tcp_ne_udp p p).symm
  rw [List.mem_flatMap]
  constructor
  · intro hfresh q hq hl4 hname
    refine hfresh ⟨q, ?_, (udp_name_mem_derivedNames_iff (hothers q hq)).2 ⟨hl4, hname⟩⟩
    exact List.perm_middle.mem_iff.2 (List.mem_cons_of_mem p hq)
  · rintro hfree ⟨q, hq, hmem⟩
    rcases List.mem_cons.1 (List.perm_middle.mem_iff.1 hq) with rfl | hother
    · exact hself hmem
    · obtain ⟨hl4, hname⟩ := (udp_name_mem_derivedNames_iff (hothers q hother)).1 hmem
      exact hfree q hother hl4 hname

end

/--
Switching HTTP/3 on adds one UDP rule on the predicate's port and changes
nothing else, exactly when no TCP or UDP predicate has the name of that rule.
-/
theorem http3_switch_accepted_iff {lib : Library} {cfg : DeriveConfig}
    {before after : List Predicate} {p : Predicate} {origin : PubKey} {rules : RuleSet}
    (haccepted : derive lib cfg ⟨before ++ p :: after, origin⟩ = .ok rules)
    (hp : p.protocol = .https) (hoff : p.httpsHttp3 = false) :
    (∃ more front back udp, derive lib cfg (switched before p after origin) = .ok more ∧
      rules.rules = front ++ back ∧ more.rules = front ++ udp :: back ∧
      udp.protocol = .udp ∧ udp.listen = ⟨cfg.bindAddr, p.listenPort⟩) ↔
      ∀ q ∈ before ++ after, q.protocol ≠ .https → q.name ≠ p.name ++ "-udp" := by
  obtain ⟨hset, hrules, -⟩ := derive_ok_iff.1 haccepted
  rw [← show derivedHttpsRuleName p .udp = p.name ++ "-udp" from rfl,
    ← udp_name_fresh_iff hset hp hoff, ← derivable_switched_iff hset hp hoff]
  constructor
  · rintro ⟨more, -, -, -, hmore, -⟩
    exact (derive_ok_iff.1 hmore).1
  · intro hswitched
    obtain ⟨more, hmore⟩ : ∃ more, derive lib cfg (switched before p after origin) = .ok more :=
      exists_derive_iff.2 hswitched
    obtain ⟨front, back, hold, hnew⟩ :=
      flatMap_derivedRules_switched cfg before after origin hp hoff
    exact ⟨more, front, back, _, hmore, hrules.trans hold,
      (derive_ok_iff.1 hmore).2.1.trans hnew, rfl, rfl⟩

def webHttps : Predicate := ⟨"web", 443, .https, none, false⟩

def sideTcp (name : String) : Predicate := ⟨name, 8443, .tcp, none, false⟩

def anyAddress : DeriveConfig := ⟨.v4 0, none⟩

theorem http3_switch_accepted_alt :
    ∃ rules more front back udp,
      derive .plain anyAddress ⟨[] ++ webHttps :: [sideTcp "alt"], .x25519 .zero⟩ =
        .ok rules ∧
      derive .plain anyAddress (switched [] webHttps [sideTcp "alt"] (.x25519 .zero)) =
        .ok more ∧
      rules.rules = front ++ back ∧ more.rules = front ++ udp :: back ∧
      udp.protocol = .udp ∧ udp.listen = ⟨.v4 0, 443⟩ := by
  obtain ⟨rules, hrules⟩ : ∃ rules, derive .plain anyAddress
      ⟨[] ++ webHttps :: [sideTcp "alt"], .x25519 .zero⟩ = .ok rules :=
    exists_derive_iff.2 ⟨by decide, by decide, by decide, by decide, by decide⟩
  obtain ⟨more, front, back, udp, h⟩ :=
    (http3_switch_accepted_iff hrules rfl rfl).2 (by decide)
  exact ⟨rules, more, front, back, udp, hrules, h⟩

/-- A set that is accepted only while HTTP/3 is off. -/
theorem http3_switch_refused :
    (∃ rules, derive .plain anyAddress
      ⟨[webHttps, sideTcp "web-udp"], .x25519 .zero⟩ = .ok rules) ∧
    derive .plain anyAddress
      (switched [] webHttps [sideTcp "web-udp"] (.x25519 .zero)) =
        .error (.duplicateRuleName "web-udp" "web" "web-udp") := by
  refine ⟨exists_derive_iff.2 ⟨by decide, by decide, by decide, by decide, by decide⟩, ?_⟩
  rfl

end Yggdrasil.Chain
