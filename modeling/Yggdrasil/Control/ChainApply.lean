import Yggdrasil.Chain.Extractor
import Yggdrasil.Chain.Publisher
import Yggdrasil.Ratatoskr.ChainQuery
import Yggdrasil.Rules.Watcher

/-!
# Applying a rule file through the control socket

`chain apply` reads a rule file, keeps its rules and sends them to the daemon;
the routes of the file are not part of the request.  The daemon validates the
rules again, checks that their projection fits the wire, and hands them to the
supervisor as a whole rule set, one without routes.
-/

namespace Yggdrasil.Control

open Foundation Ratatoskr Chain Rules
open Yggdrasil.Proxy (Supervisor)
open Yggdrasil.Proxy.Supervisor (obliging)

structure ControlState where
  mode : Mode
  hasChainUpstream : Bool
  supervisorUp : Bool
  node : Node

inductive Response where
  | chainApplied (appliedRuleCount predicateCount : Nat)
  | error (code message : String)
  deriving DecidableEq, Repr

def zeroOrigin : PubKey := .x25519 ⟨List.replicate 32 (.ofNat 0), rfl⟩

def projected (ruleset : RuleSet) : PredicateSet :=
  extract ruleset HttpsPredicateMeta.default zeroOrigin

def oversizeMessage (length : Nat) : String :=
  s!"projected predicate set is {length} bytes encoded; the wire cap is " ++
    s!"{predicateSetMaxWireBytes} bytes. Shrink the rule set (fewer rules, shorter names, " ++
    "or fewer HTTPS routes) and retry."

def predicateCount (state : ControlState) (ruleset : RuleSet) : Except Response Nat :=
  if state.hasChainUpstream then do
    let set := projected ruleset
    require (set.encode.length ≤ predicateSetMaxWireBytes)
      (.error "predicate_set_oversize" (oversizeMessage set.encode.length))
    .ok set.predicates.length
  else .ok 0

/-- Nothing is returned while the handler waits for room in the supervisor's channel. -/
def dispatchChainApply (lib : Library) (rules : List Rule) (state : ControlState) :
    Option (ControlState × Response) :=
  match RuleSet.fromRules lib rules with
  | .error e =>
      some (state, .error "rules_invalid"
        s!"candidate rule set failed validation: {e.toString}")
  | .ok ruleset =>
      match predicateCount state ruleset with
      | .error response => some (state, response)
      | .ok count =>
          if !state.supervisorUp then
            some (state, .error "apply_failed"
              "supervisor refused the apply: proxy supervisor is shut down")
          else
            (state.node.push ruleset).map (fun node =>
              ({ state with node := node }, .chainApplied rules.length count))

def methodNotAvailableOnMode (method : String) (mode : Mode) : Response :=
  .error "method_not_available_on_mode"
    (s!"`{method}` is not available on {mode.asStr}-mode daemons; " ++
      "this method requires a terminal-mode daemon")

def dispatchRequest (lib : Library) (rules : List Rule) (state : ControlState) :
    Option (ControlState × Response) :=
  if state.mode ≠ .terminal then some (state, methodNotAvailableOnMode "chain apply" state.mode)
  else dispatchChainApply lib rules state

def plural (count : Nat) : String := if count = 1 then "" else "s"

def report : Response → Except String String
  | .chainApplied rules predicates =>
      .ok (s!"applied {rules} rule{plural rules} ({predicates} projected " ++
        s!"predicate{plural predicates})")
  | .error code message => .error s!"daemon refused apply: code={code} message={message}"

def apply (lib : Library) (socket path : String) (file : RuleFile) (state : ControlState) :
    Option (ControlState × Except String String) :=
  if state.mode ≠ .terminal then
    some (state, .error (s!"this command requires a terminal-mode daemon; target at {socket} " ++
      s!"is a {state.mode.asStr}"))
  else if file.rule = [] then
    some (state, .error s!"{path} contains no `[[rule]]` blocks; nothing to apply")
  else
    match RuleSet.fromRules lib file.rule with
    | .error e => some (state, .error s!"{path} failed local validation: {e.toString}")
    | .ok _ =>
        (dispatchRequest lib file.rule state).map (fun (next, response) => (next, report response))

def withoutRoutes (set : RuleSet) : RuleSet :=
  ⟨set.rules, [], set.bindable, set.names_nodup, set.claims_nodup⟩

def Accepts (state : ControlState) (ruleset : RuleSet) : Prop :=
  state.supervisorUp = true ∧
    (state.hasChainUpstream = true →
      (projected ruleset).encode.length ≤ predicateSetMaxWireBytes)

theorem fromRules_of_fromFiles {lib : Library} {file : RuleFile} {set : RuleSet}
    (h : RuleSet.fromFiles lib [file] = .ok set) :
    RuleSet.fromRules lib file.rule = .ok (withoutRoutes set) ∧ set.routes = file.route := by
  obtain ⟨heach, hrules, hroutes, -⟩ := RuleSet.fromFiles_ok_iff.1 h
  obtain ⟨value, hvalid, -⟩ := bind_ok_iff.1 (heach file (List.mem_singleton_self file))
  simp only [List.flatMap_cons, List.flatMap_nil, List.append_nil] at hrules hroutes
  exact ⟨RuleSet.fromRules_ok_iff.2 ⟨forEach_ok_iff.1 hvalid, hrules, rfl⟩, hroutes⟩

theorem predicateCount_ok_iff {state : ControlState} {ruleset : RuleSet} :
    (∃ count, predicateCount state ruleset = .ok count) ↔
      (state.hasChainUpstream = true →
        (projected ruleset).encode.length ≤ predicateSetMaxWireBytes) := by
  unfold predicateCount
  cases state.hasChainUpstream with
  | false => simp
  | true =>
      simp only [if_true, require_bind_ok_iff, forall_const]
      constructor
      · rintro ⟨count, hfits, -⟩
        exact hfits
      · intro hfits
        exact ⟨_, hfits, rfl⟩

theorem dispatchChainApply_cases {lib : Library} {rules : List Rule} {state next : ControlState}
    {ruleset : RuleSet} {response : Response} (hrules : RuleSet.fromRules lib rules = .ok ruleset)
    (h : dispatchChainApply lib rules state = some (next, response)) :
    (Accepts state ruleset ∧ state.node.push ruleset = some next.node) ∨
      (¬Accepts state ruleset ∧ next = state) := by
  unfold dispatchChainApply at h
  simp only [hrules] at h
  cases hcount : predicateCount state ruleset with
  | error refusal =>
      simp only [hcount, Option.some.injEq, Prod.mk.injEq] at h
      refine .inr ⟨fun haccepts => ?_, h.1.symm⟩
      obtain ⟨count, hok⟩ := predicateCount_ok_iff.2 haccepts.2
      cases hcount.symm.trans hok
  | ok count =>
      simp only [hcount] at h
      have hfits := predicateCount_ok_iff.1 ⟨count, hcount⟩
      cases hup : state.supervisorUp with
      | false =>
          simp only [hup, Bool.not_false, if_true, Option.some.injEq, Prod.mk.injEq] at h
          exact .inr ⟨by simp [Accepts, hup], h.1.symm⟩
      | true =>
          simp only [hup, Bool.not_true, Bool.false_eq_true, if_false, Option.map_eq_some_iff,
            Prod.mk.injEq] at h
          obtain ⟨node, hpush, hnext, -⟩ := h
          refine .inl ⟨⟨hup, hfits⟩, ?_⟩
          rw [hpush, ← hnext]

/--
On any terminal, once `chain apply` has been processed and the supervisor has
drained its channels, it runs the set of the file exactly when the rules were
accepted and the file has no routes, or they were refused and the supervisor
was to end with that set anyway.
-/
theorem apply_loads_file_iff {lib : Library} {socket path : String} {file : RuleFile}
    {set : RuleSet} {state next : ControlState} {outcome : Except String String}
    {defaultBind : Option IpAddr} {final : Node} (hterminal : state.mode = .terminal)
    (hset : RuleSet.fromFiles lib [file] = .ok set) (hrules : file.rule ≠ [])
    (happly : apply lib socket path file state = some (next, outcome))
    (hdrains : next.node.Drains defaultBind final) :
    final.supervisor.currentSet = set ↔
      (Accepts state (withoutRoutes set) ∧ file.route = []) ∨
        (¬Accepts state (withoutRoutes set) ∧ state.node.newest = set) := by
  obtain ⟨hfromRules, hroutes⟩ := fromRules_of_fromFiles hset
  have hdispatch : ∃ response,
      dispatchChainApply lib file.rule state = some (next, response) := by
    simp only [apply, hterminal, hrules, hfromRules, dispatchRequest, ne_eq, not_true_eq_false,
      if_false, Option.map_eq_some_iff] at happly
    obtain ⟨⟨state', response⟩, hresponse, hpair⟩ := happly
    obtain rfl : state' = next := (Prod.mk.inj hpair).1
    exact ⟨response, hresponse⟩
  obtain ⟨response, hresponse⟩ := hdispatch
  rw [Node.currentSet_of_drains hdrains]
  rcases dispatchChainApply_cases hfromRules hresponse with
    ⟨haccepts, hpush⟩ | ⟨hrefused, rfl⟩
  · rw [Node.newest_push hpush, ← hroutes]
    constructor
    · intro hsame
      exact .inl ⟨haccepts, (congrArg RuleSet.routes hsame).symm⟩
    · rintro (⟨-, hnone⟩ | ⟨hrefused, -⟩)
      · exact RuleSet.eq_of_parts rfl hnone.symm
      · exact absurd haccepts hrefused
  · constructor
    · intro hsame
      exact .inr ⟨hrefused, hsame⟩
    · rintro (⟨haccepts, -⟩ | ⟨-, hsame⟩)
      · exact absurd haccepts hrefused
      · exact hsame

def fileOf (set : RuleSet) : RuleFile := ⟨set.rules, set.routes⟩

def terminalRunning (set : RuleSet) : ControlState :=
  ⟨.terminal, true, true, ⟨set, [], [], Supervisor.start.applySet none obliging set⟩⟩

/-- The file the terminal already runs is applied, and its route is gone. -/
theorem apply_drops_routes :
    RuleSet.fromFiles .plain [fileOf sshAndWeb] = .ok sshAndWeb ∧
    run (Node.step none) (.start sshAndWeb) [.take obliging] =
      some (terminalRunning sshAndWeb).node ∧
    ∃ next outcome final,
      apply .plain "/run/yggdrasil.sock" "rules.toml" (fileOf sshAndWeb)
        (terminalRunning sshAndWeb) = some (next, .ok outcome) ∧
      next.node.Drains none final ∧ final.supervisor.currentSet ≠ sshAndWeb := by
  refine ⟨?_, rfl, _, _, _, rfl, ⟨[obliging], rfl, rfl, rfl⟩, ?_⟩
  · refine RuleSet.fromFiles_ok_iff.2 ⟨?_, rfl, rfl, by decide⟩
    exact List.forall_mem_singleton.2 rfl
  · intro h
    exact absurd (congrArg RuleSet.routes h) (by decide)

theorem apply_loads_file_without_routes :
    ∃ next outcome final,
      apply .plain "/run/yggdrasil.sock" "rules.toml" (fileOf (withoutRoutes sshAndWeb))
        (terminalRunning sshAndWeb) = some (next, outcome) ∧
      next.node.Drains none final ∧
      final.supervisor.currentSet = withoutRoutes sshAndWeb := by
  have hset : RuleSet.fromFiles .plain [fileOf (withoutRoutes sshAndWeb)] =
      .ok (withoutRoutes sshAndWeb) :=
    RuleSet.fromFiles_ok_iff.2 ⟨List.forall_mem_singleton.2 rfl, rfl, rfl, by decide⟩
  let next : ControlState := { terminalRunning sshAndWeb with
    node := { (terminalRunning sshAndWeb).node with pushes := [withoutRoutes sshAndWeb] } }
  have happly : apply .plain "/run/yggdrasil.sock" "rules.toml" (fileOf (withoutRoutes sshAndWeb))
      (terminalRunning sshAndWeb) = some (next, .ok "applied 1 rule (1 projected predicate)") := rfl
  have hdrains : next.node.Drains none { next.node with
      pushes := []
      supervisor := next.node.supervisor.applySet none obliging (withoutRoutes sshAndWeb) } :=
    ⟨[obliging], rfl, rfl, rfl⟩
  exact ⟨next, _, _, happly, hdrains,
    (apply_loads_file_iff rfl hset (by decide) happly hdrains).2
      (.inl ⟨⟨rfl, fun _ => by decide⟩, rfl⟩)⟩

end Yggdrasil.Control
