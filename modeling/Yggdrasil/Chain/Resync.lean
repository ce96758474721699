import Yggdrasil.Chain.Acceptor
import Yggdrasil.Chain.Derive

/-!
# Resync of a restarted upstream

A mid-chain relay remembers the last body it accepted from each origin and
sends all of them, in the iteration order of a hash map, when its upstream
completes a new handshake.  Each of them replaces the whole rule set there.
-/

namespace Yggdrasil.Chain

open Foundation Ratatoskr

/-- Every error of the derivation is reported alike. -/
def DeriveError.rejectCode (_ : DeriveError) : UInt16 := invalidPredicate

/-- The acceptor's parameter, with the decoder and the derivation themselves. -/
def derivation (lib : Library) (cfg : DeriveConfig) : Derivation PredicateSet RuleSet where
  fromWireBytes body := (PredicateSet.fromWireBytes lib body).toOption
  origin := PredicateSet.origin
  derive set := (Chain.derive lib cfg set).mapError DeriveError.rejectCode

namespace ChainAcceptor

variable {π ρ : Type} (D : Derivation π ρ)

def fresh (upstream : Option Bool) : ChainAcceptor ρ := ⟨true, upstream, [], ∅, []⟩

def deliver (acceptor : ChainAcceptor ρ) (bodies : List Bytes) : ChainAcceptor ρ :=
  bodies.foldl (fun acceptor body => (acceptor.handlePredicateSetUpdate D body).1) acceptor

def stored (acceptor : ChainAcceptor ρ) : List Bytes :=
  acceptor.lastForwarded.entries.map Sigma.snd

def currentRules (acceptor : ChainAcceptor ρ) : Option ρ :=
  acceptor.applied.getLast?.map Prod.snd

def originOf (body : Bytes) : Option PubKey := (D.fromWireBytes body).map D.origin

def rulesOf (body : Bytes) : Option ρ :=
  if body.length ≤ predicateSetMaxWireBytes then
    (D.fromWireBytes body).bind (fun set => (D.derive set).toOption)
  else none

def latestFrom (bodies : List Bytes) (origin : PubKey) : Option Bytes :=
  (bodies.filter (fun body => originOf D body = some origin)).getLast?

section

variable {D} {acceptor : ChainAcceptor ρ} {body : Bytes}

theorem handle_of_accepted (hup : acceptor.supervisorUp = true) {rules : ρ}
    (h : rulesOf D body = some rules) :
    ∃ origin, originOf D body = some origin ∧
      (acceptor.handlePredicateSetUpdate D body).1 =
        ({ acceptor with applied := acceptor.applied ++ [(body, rules)] }).forward origin body := by
  unfold rulesOf at h
  split at h
  · rename_i hsize
    obtain ⟨set, hset, hrules⟩ := Option.bind_eq_some_iff.1 h
    have hderive : D.derive set = .ok rules := by
      cases hcase : D.derive set with
      | error code => simp [hcase, Except.toOption] at hrules
      | ok value => simpa [hcase, Except.toOption] using hrules
    refine ⟨D.origin set, by simp [originOf, hset], ?_⟩
    unfold handlePredicateSetUpdate
    simp [Nat.not_lt.2 hsize, hset, hderive, hup]
  · cases h

theorem handle_of_refused (h : rulesOf D body = none) :
    (acceptor.handlePredicateSetUpdate D body).1 = acceptor := by
  unfold rulesOf at h
  unfold handlePredicateSetUpdate
  split at h
  · rename_i hsize
    rw [if_neg (Nat.not_lt.2 hsize)]
    cases hset : D.fromWireBytes body with
    | none => rfl
    | some set =>
        rw [hset, Option.bind_some] at h
        cases hderive : D.derive set with
        | error code => simp [hderive]
        | ok rules => simp [hderive, Except.toOption] at h
  · rename_i hsize
    rw [if_pos (Nat.lt_of_not_le hsize)]

@[simp] theorem applied_forward (origin : PubKey) :
    (acceptor.forward origin body).applied = acceptor.applied := by
  unfold forward
  split <;> rfl

@[simp] theorem supervisorUp_forward (origin : PubKey) :
    (acceptor.forward origin body).supervisorUp = acceptor.supervisorUp := by
  unfold forward
  split <;> rfl

@[simp] theorem upstream_forward (origin : PubKey) :
    (acceptor.forward origin body).upstream = acceptor.upstream := by
  unfold forward
  split <;> rfl

theorem lookup_forward (acceptor : ChainAcceptor ρ) (body : Bytes)
    (hupstream : acceptor.upstream.isSome = true) (origin other : PubKey) :
    (acceptor.forward origin body).lastForwarded.lookup other =
      if other = origin then some body else acceptor.lastForwarded.lookup other := by
  obtain ⟨running, hrunning⟩ := Option.isSome_iff_exists.1 hupstream
  unfold forward
  rw [hrunning]
  by_cases hsame : other = origin
  · rw [if_pos hsame, hsame]
    exact AList.lookup_insert _
  · rw [if_neg hsame]
    exact AList.lookup_insert_ne hsame

end

/-- A running relay with an upstream holds the last accepted body of every origin. -/
structure Relaying (acceptor : ChainAcceptor ρ) : Prop where
  up : acceptor.supervisorUp = true
  upstream : acceptor.upstream.isSome = true
  accepted : ∀ body ∈ acceptor.appliedBodies, (rulesOf D body).isSome = true
  remembered : ∀ origin, acceptor.lastForwarded.lookup origin =
    latestFrom D acceptor.appliedBodies origin

theorem relaying_fresh (running : Bool) : Relaying D (fresh (some running)) :=
  ⟨rfl, rfl, by simp [fresh, appliedBodies], fun _ => rfl⟩

section

variable {D} {acceptor : ChainAcceptor ρ}

variable {body : Bytes}

theorem latestFrom_concat (bodies : List Bytes) {origin : PubKey}
    (horigin : originOf D body = some origin) (other : PubKey) :
    latestFrom D (bodies ++ [body]) other =
      if other = origin then some body else latestFrom D bodies other := by
  unfold latestFrom
  rw [List.filter_append]
  by_cases hsame : other = origin
  · simp [hsame, horigin]
  · have hother : ¬ some origin = some other := fun h => hsame (Option.some.inj h).symm
    simp [hsame, horigin, hother]

theorem relaying_handle (h : Relaying D acceptor) (body : Bytes) :
    Relaying D (acceptor.handlePredicateSetUpdate D body).1 := by
  cases hrules : rulesOf D body with
  | none =>
      rw [handle_of_refused hrules]
      exact h
  | some rules =>
      obtain ⟨origin, horigin, hhandle⟩ := handle_of_accepted h.up hrules
      rw [hhandle]
      refine ⟨?_, ?_, ?_, ?_⟩
      · simpa using h.up
      · simpa using h.upstream
      · intro applied happlied
        rw [appliedBodies_forward] at happlied
        simp only [appliedBodies, List.map_append, List.map_singleton, List.mem_append,
          List.mem_singleton] at happlied
        rcases happlied with hold | rfl
        · exact h.accepted applied hold
        · rw [hrules]
          rfl
      · intro other
        have hbodies : appliedBodies { acceptor with applied := acceptor.applied ++ [(body, rules)] } =
            acceptor.appliedBodies ++ [body] := by
          simp [appliedBodies]
        have hlookup := lookup_forward
          { acceptor with applied := acceptor.applied ++ [(body, rules)] } body h.upstream origin
          other
        rw [hlookup, appliedBodies_forward, hbodies,
          latestFrom_concat _ horigin]
        split
        · rfl
        · exact h.remembered other

theorem relaying_deliver (h : Relaying D acceptor) (bodies : List Bytes) :
    Relaying D (acceptor.deliver D bodies) := by
  induction bodies generalizing acceptor with
  | nil => exact h
  | cons body bodies ih => exact ih (relaying_handle h body)

theorem mem_stored_iff (h : Relaying D acceptor) :
    body ∈ acceptor.stored ↔ ∃ origin, latestFrom D acceptor.appliedBodies origin = some body := by
  simp only [stored, List.mem_map, Sigma.exists, mem_entries_iff, h.remembered]
  constructor
  · rintro ⟨origin, last, hlast, rfl⟩
    exact ⟨origin, hlast⟩
  · rintro ⟨origin, hlast⟩
    exact ⟨origin, body, hlast, rfl⟩

theorem mem_appliedBodies_of_stored (h : Relaying D acceptor)
    (hmem : body ∈ acceptor.stored) : body ∈ acceptor.appliedBodies := by
  obtain ⟨origin, hlast⟩ := (mem_stored_iff h).1 hmem
  exact (List.mem_filter.1 (List.mem_of_getLast? hlast)).1

theorem exists_originOf (h : (rulesOf D body).isSome = true) :
    ∃ origin, originOf D body = some origin := by
  unfold rulesOf at h
  split at h
  · cases hset : D.fromWireBytes body with
    | none => simp [hset] at h
    | some set => exact ⟨D.origin set, by simp [originOf, hset]⟩
  · cases h

theorem latest_mem_stored (h : Relaying D acceptor) {latest : Bytes}
    (hlatest : acceptor.appliedBodies.getLast? = some latest) : latest ∈ acceptor.stored := by
  obtain ⟨earlier, hsplit⟩ := List.getLast?_eq_some_iff.1 hlatest
  obtain ⟨origin, horigin⟩ := exists_originOf
    (h.accepted latest (List.mem_of_getLast? hlatest))
  refine (mem_stored_iff h).2 ⟨origin, ?_⟩
  rw [hsplit, latestFrom_concat earlier horigin, if_pos rfl]

theorem supervisorUp_handle (hup : acceptor.supervisorUp = true) (body : Bytes) :
    (acceptor.handlePredicateSetUpdate D body).1.supervisorUp = true := by
  cases hrules : rulesOf D body with
  | none =>
      rw [handle_of_refused hrules]
      exact hup
  | some rules =>
      obtain ⟨origin, -, hhandle⟩ := handle_of_accepted hup hrules
      rw [hhandle, supervisorUp_forward]
      exact hup

theorem supervisorUp_deliver (hup : acceptor.supervisorUp = true) (bodies : List Bytes) :
    (acceptor.deliver D bodies).supervisorUp = true := by
  induction bodies generalizing acceptor with
  | nil => exact hup
  | cons body bodies ih => exact ih (supervisorUp_handle hup body)

theorem currentRules_deliver_concat (hup : acceptor.supervisorUp = true) (bodies : List Bytes)
    {last : Bytes} {rules : ρ} (h : rulesOf D last = some rules) :
    (acceptor.deliver D (bodies ++ [last])).currentRules = some rules := by
  obtain ⟨origin, -, hhandle⟩ :=
    handle_of_accepted (supervisorUp_deliver (D := D) hup bodies) h
  have hdeliver : acceptor.deliver D (bodies ++ [last]) =
      ((acceptor.deliver D bodies).handlePredicateSetUpdate D last).1 := by
    simp [deliver]
  rw [hdeliver, hhandle, currentRules, applied_forward]
  simp

end

end ChainAcceptor

open ChainAcceptor

theorem isSome_rulesOf_derivation {lib : Library} (cfg other : DeriveConfig) {body : Bytes}
    (h : (rulesOf (derivation lib cfg) body).isSome = true) :
    (rulesOf (derivation lib other) body).isSome = true := by
  unfold rulesOf at h ⊢
  split at h
  · rename_i hsize
    rw [if_pos hsize]
    cases hset : (derivation lib cfg).fromWireBytes body with
    | none => simp [hset] at h
    | some set =>
        rw [hset, Option.bind_some] at h
        have hderives : ∃ rules, derive lib cfg set = .ok rules := by
          cases hderive : derive lib cfg set with
          | error e => simp [derivation, hderive, Except.mapError, Except.toOption] at h
          | ok rules => exact ⟨rules, rfl⟩
        obtain ⟨rules, hrules⟩ : ∃ rules, derive lib other set = .ok rules :=
          exists_derive_iff.2 (exists_derive_iff.1 hderives)
        have hother : (derivation lib other).fromWireBytes body = some set := hset
        rw [hother]
        simp [derivation, hrules, Except.mapError, Except.toOption]
  · cases h

/--
After any history of updates, an upstream that restarts empty ends with the
rules of the body the relay accepted last, in whatever order the stored bodies
are sent, exactly when the last accepted body of every origin yields the same
rules there.
-/
theorem resync_converges_iff (lib : Library) (cfg upstreamCfg : DeriveConfig) (running : Bool)
    (history : List Bytes) {relay : ChainAcceptor RuleSet}
    (hrelay : relay = (fresh (some running)).deliver (derivation lib cfg) history)
    {latest : Bytes} (hlatest : relay.appliedBodies.getLast? = some latest)
    (upstream : Option Bool) :
    (rulesOf (derivation lib upstreamCfg) latest).isSome = true ∧
    ((∀ order : List Bytes, order.Perm relay.stored →
        ((fresh upstream).deliver (derivation lib upstreamCfg) order).currentRules =
          rulesOf (derivation lib upstreamCfg) latest) ↔
      ∀ origin body, latestFrom (derivation lib cfg) relay.appliedBodies origin = some body →
        rulesOf (derivation lib upstreamCfg) body =
          rulesOf (derivation lib upstreamCfg) latest) := by
  have hrelaying : Relaying (derivation lib cfg) relay := by
    rw [hrelay]
    exact relaying_deliver (relaying_fresh _ running) history
  have haccepted : ∀ body ∈ relay.stored,
      ∃ rules, rulesOf (derivation lib upstreamCfg) body = some rules := by
    intro body hbody
    have hsome := hrelaying.accepted body (mem_appliedBodies_of_stored hrelaying hbody)
    exact Option.isSome_iff_exists.1 (isSome_rulesOf_derivation cfg upstreamCfg hsome)
  have hstored := latest_mem_stored hrelaying hlatest
  refine ⟨Option.isSome_iff_exists.2 (haccepted latest hstored), ?_⟩
  constructor
  · intro hall origin body hbody
    -- an order that ends with this body
    have hmem : body ∈ relay.stored := (mem_stored_iff hrelaying).2 ⟨origin, hbody⟩
    obtain ⟨rules, hrules⟩ := haccepted body hmem
    have hperm : (relay.stored.erase body ++ [body]).Perm relay.stored :=
      (List.perm_append_singleton _ _).trans (List.perm_cons_erase hmem).symm
    rw [← hall _ hperm, currentRules_deliver_concat rfl _ hrules, hrules]
  · intro hagree order hperm
    have hne : order ≠ [] := by
      rintro rfl
      rw [List.nil_perm.1 hperm] at hstored
      cases hstored
    obtain ⟨earlier, last, rfl⟩ := (List.eq_nil_or_concat' order).resolve_left hne
    have hmem : last ∈ relay.stored := hperm.mem_iff.1 (by simp)
    obtain ⟨rules, hrules⟩ := haccepted last hmem
    obtain ⟨origin, hlast⟩ := (mem_stored_iff hrelaying).1 hmem
    rw [currentRules_deliver_concat rfl _ hrules, ← hagree origin last hlast, hrules]

def originA : PubKey := .x25519 ⟨List.replicate 32 1, rfl⟩
def originB : PubKey := .x25519 ⟨List.replicate 32 2, rfl⟩

def sshBody (origin : PubKey) : Bytes :=
  PredicateSet.encode ⟨[⟨"ssh", 22, .tcp, none, false⟩], origin⟩

def dnsBody (origin : PubKey) : Bytes :=
  PredicateSet.encode ⟨[⟨"dns", 53, .udp, none, false⟩], origin⟩

def relayOf (history : List Bytes) : ChainAcceptor RuleSet :=
  (fresh (some true)).deliver (derivation .plain ⟨.v4 0, none⟩) history

/-- Two origins: the body accepted first may be sent last. -/
theorem resync_ends_with_stale_origin :
    ∃ order : List Bytes,
      (relayOf [sshBody originA, dnsBody originB]).appliedBodies.getLast? =
        some (dnsBody originB) ∧
      order.Perm (relayOf [sshBody originA, dnsBody originB]).stored ∧
      ((fresh none).deliver (derivation .plain ⟨.v4 0, none⟩) order).currentRules ≠
        rulesOf (derivation .plain ⟨.v4 0, none⟩) (dnsBody originB) := by
  refine ⟨[dnsBody originB, sshBody originA], by decide, by decide, ?_⟩
  intro h
  exact absurd (congrArg (Option.map RuleSet.rules) h) (by decide)

/-- Two origins whose last bodies say the same. -/
theorem resync_converges_like_origins :
    (rulesOf (derivation .plain ⟨.v4 0, none⟩) (dnsBody originB)).isSome = true ∧
    ∀ order : List Bytes,
      order.Perm (relayOf [sshBody originA, dnsBody originA, dnsBody originB]).stored →
        ((fresh none).deliver (derivation .plain ⟨.v4 0, none⟩) order).currentRules =
          rulesOf (derivation .plain ⟨.v4 0, none⟩) (dnsBody originB) := by
  have happlied : (relayOf [sshBody originA, dnsBody originA, dnsBody originB]).appliedBodies =
      [] ++ [sshBody originA] ++ [dnsBody originA] ++ [dnsBody originB] := by decide
  have horigin : ∀ origin ∈ [originA, originB],
      originOf (derivation .plain ⟨.v4 0, none⟩) (dnsBody origin) = some origin := by decide
  have hssh : originOf (derivation .plain ⟨.v4 0, none⟩) (sshBody originA) = some originA := by
    decide
  refine ⟨by decide, (resync_converges_iff .plain ⟨.v4 0, none⟩ ⟨.v4 0, none⟩ true
    [sshBody originA, dnsBody originA, dnsBody originB] rfl (by decide) none).2.2 ?_⟩
  intro origin body hbody
  change latestFrom _ (relayOf _).appliedBodies origin = some body at hbody
  rw [happlied, latestFrom_concat _ (horigin originB (by simp)),
    latestFrom_concat _ (horigin originA (by simp)), latestFrom_concat _ hssh] at hbody
  split_ifs at hbody with hB hA
  · rw [Option.some.inj hbody]
  · cases hbody
    rfl
  · cases hbody

end Yggdrasil.Chain
