import Mathlib.Data.List.Sort
import Yggdrasil.Foundation.Keyed
import Yggdrasil.Foundation.Net

/-!
# Rule sets and their reload diff

A rule set carries what its validation established: names are unique, no two
rules share a listen address on one protocol, and every rule is a bindable L4
rule.  The diff is keyed by name and follows the order of the new set.
-/

namespace Yggdrasil.Ratatoskr

open Foundation

inductive Protocol where
  | tcp
  | udp
  | https
  deriving DecidableEq, Repr

inductive ProxyProto where
  | v1
  | v2
  deriving DecidableEq, Repr

structure Rule where
  name : String
  listen : SocketAddr
  protocol : Protocol
  targetPort : Option UInt16
  target : Option String
  /-- Nanoseconds. -/
  idleTimeout : Option Nat
  proxyProtocol : Option ProxyProto
  deriving DecidableEq, Repr

structure HstsConfig where
  maxAge : UInt32
  includeSubdomains : Bool
  preload : Bool
  deriving DecidableEq, Repr

structure HttpRoute where
  hostname : String
  target : String
  hsts : Option HstsConfig
  headers : List (String × String)
  deriving DecidableEq, Repr

def sameFamily : IpAddr → IpAddr → Bool
  | .v4 _, .v4 _ => true
  | .v6 _, .v6 _ => true
  | _, _ => false

/-- The default bind address replaces a wildcard of its own family only. -/
def Rule.withBindOverride (rule : Rule) (bindIp : Option IpAddr) : Rule :=
  match bindIp with
  | none => rule
  | some ip =>
      if !rule.listen.ip.isUnspecified || !sameFamily rule.listen.ip ip then rule
      else { rule with listen := ⟨ip, rule.listen.port⟩ }

@[simp] theorem Rule.name_withBindOverride (rule : Rule) (bindIp : Option IpAddr) :
    (rule.withBindOverride bindIp).name = rule.name := by
  unfold Rule.withBindOverride
  split
  · rfl
  · split_ifs <;> rfl

@[simp] theorem Rule.protocol_withBindOverride (rule : Rule) (bindIp : Option IpAddr) :
    (rule.withBindOverride bindIp).protocol = rule.protocol := by
  unfold Rule.withBindOverride
  split
  · rfl
  · split_ifs <;> rfl

/-- What a listener occupies: TCP and UDP share no sockets. -/
abbrev Claim := SocketAddr × Protocol

def Rule.claim (rule : Rule) : Claim := (rule.listen, rule.protocol)

structure RuleSet where
  rules : List Rule
  routes : List HttpRoute
  bindable : ∀ rule ∈ rules, rule.protocol ≠ .https ∧ rule.listen.port ≠ 0
  names_nodup : (rules.map Rule.name).Nodup
  claims_nodup : (rules.map Rule.claim).Nodup

structure RuleChange where
  old : Rule
  new : Rule
  deriving DecidableEq, Repr

structure RuleDiff where
  added : List Rule
  removed : List Rule
  changed : List RuleChange
  unchanged : List String
  routesChanged : Bool
  deriving DecidableEq, Repr

def RuleDiff.record (diff : RuleDiff) (newRule : Rule) : Option Rule → RuleDiff
  | some old =>
      if old = newRule then { diff with unchanged := diff.unchanged ++ [newRule.name] }
      else { diff with changed := diff.changed ++ [⟨old, newRule⟩] }
  | none => { diff with added := diff.added ++ [newRule] }

def RuleDiff.isNoop (diff : RuleDiff) : Bool :=
  diff.added.isEmpty && diff.removed.isEmpty && diff.changed.isEmpty && !diff.routesChanged

namespace RuleSet

def empty : RuleSet := ⟨[], [], by simp, by simp, by simp⟩

def find (set : RuleSet) (name : String) : Option Rule :=
  findKey Rule.name set.rules name

abbrev RuleTable := AList (fun _ : String => Rule)

def classify (acc : RuleTable × RuleDiff) (newRule : Rule) : RuleTable × RuleDiff :=
  let (found, oldByName) := acc.1.extract newRule.name
  (oldByName, acc.2.record newRule found)

def diff (old new : RuleSet) : RuleDiff :=
  let (left, diff) := new.rules.foldl classify
    (keyed Rule.name old.rules, ⟨[], [], [], [], false⟩)
  { diff with
    removed := (left.entries.map Sigma.snd).insertionSort (fun a b => a.name ≤ b.name)
    routesChanged := decide (old.routes ≠ new.routes) }

variable {rule : Rule}

theorem find_eq_some_iff (set : RuleSet) {name : String} :
    set.find name = some rule ↔ rule ∈ set.rules ∧ rule.name = name :=
  findKey_eq_some_iff Rule.name set.names_nodup

theorem find_of_mem (set : RuleSet) (hmem : rule ∈ set.rules) : set.find rule.name = some rule :=
  set.find_eq_some_iff.2 ⟨hmem, rfl⟩

def changeOf (find : String → Option Rule) (newRule : Rule) : Option RuleChange :=
  match find newRule.name with
  | some oldRule => if oldRule = newRule then none else some ⟨oldRule, newRule⟩
  | none => none

def isAdded (find : String → Option Rule) (newRule : Rule) : Bool :=
  (find newRule.name).isNone

def isUnchanged (find : String → Option Rule) (newRule : Rule) : Bool :=
  find newRule.name == some newRule

def outcome (find : String → Option Rule) (rules : List Rule) (diff : RuleDiff) : RuleDiff :=
  { diff with
    added := diff.added ++ rules.filter (isAdded find)
    changed := diff.changed ++ rules.filterMap (changeOf find)
    unchanged := diff.unchanged ++ (rules.filter (isUnchanged find)).map Rule.name }

theorem outcome_cons (find : String → Option Rule) (first : Rule) (rest : List Rule)
    (diff : RuleDiff) :
    outcome find (first :: rest) diff =
      outcome find rest (diff.record first (find first.name)) := by
  unfold outcome RuleDiff.record
  cases hfind : find first.name with
  | none => simp [isAdded, isUnchanged, changeOf, hfind]
  | some old =>
      by_cases hsame : old = first
      · simp [isAdded, isUnchanged, changeOf, hfind, hsame]
      · simp [isAdded, isUnchanged, changeOf, hfind, hsame]

theorem outcome_congr (find find' : String → Option Rule) {rules : List Rule}
    (h : ∀ rule ∈ rules, find rule.name = find' rule.name) (diff : RuleDiff) :
    outcome find rules diff = outcome find' rules diff := by
  have hadded : rules.filter (isAdded find) = rules.filter (isAdded find') :=
    List.filter_congr (fun rule hrule => by simp only [isAdded, h rule hrule])
  have hunchanged : rules.filter (isUnchanged find) = rules.filter (isUnchanged find') :=
    List.filter_congr (fun rule hrule => by simp only [isUnchanged, h rule hrule])
  have hchanged : rules.filterMap (changeOf find) = rules.filterMap (changeOf find') :=
    List.filterMap_congr (fun rule hrule => by simp only [changeOf, h rule hrule])
  simp only [outcome, hadded, hunchanged, hchanged]

-- Taking a name out of the table does not disturb the later rules: their names differ.
theorem foldl_classify (rules : List Rule) (table : RuleTable) (diff : RuleDiff)
    (hnodup : (rules.map Rule.name).Nodup) :
    rules.foldl classify (table, diff) =
      (eraseAll (rules.map Rule.name) table, outcome (fun name => table.lookup name) rules diff) := by
  induction rules generalizing table diff with
  | nil => simp [eraseAll, outcome]
  | cons first rest ih =>
      rw [List.map_cons, List.nodup_cons] at hnodup
      have hrest : ∀ rule ∈ rest,
          (table.erase first.name).lookup rule.name = table.lookup rule.name := by
        intro rule hrule
        apply AList.lookup_erase_ne
        intro hname
        exact hnodup.1 (hname ▸ List.mem_map_of_mem hrule)
      rw [List.foldl_cons, classify, AList.extract_eq_lookup_erase]
      simp only
      rw [ih _ _ hnodup.2,
        outcome_congr _ (fun name => table.lookup name) hrest, outcome_cons]
      rfl

theorem diff_eq (old new : RuleSet) :
    old.diff new =
      { outcome old.find new.rules ⟨[], [], [], [], false⟩ with
        removed := ((eraseAll (new.rules.map Rule.name) (keyed Rule.name old.rules)).entries.map
          Sigma.snd).insertionSort (fun a b => a.name ≤ b.name)
        routesChanged := decide (old.routes ≠ new.routes) } := by
  have hfind : (fun name => (keyed Rule.name old.rules).lookup name) = old.find :=
    funext (lookup_keyed Rule.name old.names_nodup)
  rw [diff, foldl_classify _ _ _ new.names_nodup, hfind]

theorem added_diff (old new : RuleSet) :
    (old.diff new).added = new.rules.filter (isAdded old.find) := by
  simp [diff_eq, outcome]

theorem changed_diff (old new : RuleSet) :
    (old.diff new).changed = new.rules.filterMap (changeOf old.find) := by
  simp [diff_eq, outcome]

theorem unchanged_diff (old new : RuleSet) :
    (old.diff new).unchanged = (new.rules.filter (isUnchanged old.find)).map Rule.name := by
  simp [diff_eq, outcome]

theorem mem_added_diff (old new : RuleSet) :
    rule ∈ (old.diff new).added ↔ rule ∈ new.rules ∧ old.find rule.name = none := by
  rw [added_diff, List.mem_filter, isAdded, Option.isNone_iff_eq_none]

theorem changeOf_eq_some {find : String → Option Rule} {change : RuleChange} :
    changeOf find rule = some change ↔
      change.new = rule ∧ find rule.name = some change.old ∧ change.old ≠ change.new := by
  unfold changeOf
  obtain ⟨oldRule, newRule⟩ := change
  cases hfind : find rule.name with
  | none => simp
  | some found =>
      by_cases hsame : found = rule
      · simp only [if_pos hsame, Option.some.injEq, false_iff, reduceCtorEq]
        rintro ⟨rfl, rfl, hne⟩
        exact hne hsame
      · simp only [if_neg hsame, Option.some.injEq, RuleChange.mk.injEq]
        constructor
        · rintro ⟨rfl, rfl⟩
          exact ⟨rfl, rfl, hsame⟩
        · rintro ⟨rfl, rfl, -⟩
          exact ⟨rfl, rfl⟩

theorem mem_changed_diff (old new : RuleSet) {change : RuleChange} :
    change ∈ (old.diff new).changed ↔
      change.new ∈ new.rules ∧ old.find change.new.name = some change.old ∧
        change.old ≠ change.new := by
  rw [changed_diff, List.mem_filterMap]
  constructor
  · rintro ⟨rule, hrule, hchange⟩
    obtain ⟨rfl, hfind, hne⟩ := changeOf_eq_some.1 hchange
    exact ⟨hrule, hfind, hne⟩
  · rintro ⟨hrule, hfind, hne⟩
    exact ⟨change.new, hrule, changeOf_eq_some.2 ⟨rfl, hfind, hne⟩⟩

theorem mem_unchanged_diff (old new : RuleSet) {name : String} :
    name ∈ (old.diff new).unchanged ↔
      ∃ rule ∈ new.rules, rule.name = name ∧ old.find name = some rule := by
  rw [unchanged_diff, List.mem_map]
  constructor
  · rintro ⟨rule, hrule, rfl⟩
    rw [List.mem_filter, isUnchanged, beq_iff_eq] at hrule
    exact ⟨rule, hrule.1, rfl, hrule.2⟩
  · rintro ⟨rule, hrule, rfl, hfind⟩
    refine ⟨rule, List.mem_filter.2 ⟨hrule, ?_⟩, rfl⟩
    rw [isUnchanged, beq_iff_eq, hfind]

theorem map_new_changed_diff (old new : RuleSet) :
    (old.diff new).changed.map RuleChange.new =
      new.rules.filter (fun rule => (changeOf old.find rule).isSome) := by
  rw [changed_diff, List.map_filterMap, ← List.filterMap_eq_filter]
  apply List.filterMap_congr
  intro rule _
  cases hchange : changeOf old.find rule with
  | none => simp [Option.guard, hchange]
  | some change => simp [Option.guard, hchange, (changeOf_eq_some.1 hchange).1]

theorem mem_removed_diff (old new : RuleSet) :
    rule ∈ (old.diff new).removed ↔ rule ∈ old.rules ∧ new.find rule.name = none := by
  have hleft : ∀ name,
      (eraseAll (new.rules.map Rule.name) (keyed Rule.name old.rules)).lookup name =
        if name ∈ new.rules.map Rule.name then none else old.find name := by
    intro name
    rw [lookup_eraseAll, lookup_keyed Rule.name old.names_nodup, find]
  have habsent : new.find rule.name = none ↔ rule.name ∉ new.rules.map Rule.name :=
    findKey_eq_none_iff Rule.name
  rw [diff_eq, List.mem_insertionSort, List.mem_map, habsent]
  constructor
  · rintro ⟨⟨name, found⟩, hmem, rfl⟩
    rw [mem_entries_iff, hleft] at hmem
    split_ifs at hmem with hname
    obtain ⟨hold, rfl⟩ := old.find_eq_some_iff.1 hmem
    exact ⟨hold, hname⟩
  · rintro ⟨hold, hname⟩
    refine ⟨⟨rule.name, rule⟩, ?_, rfl⟩
    rw [mem_entries_iff, hleft, if_neg hname, old.find_of_mem hold]

end RuleSet

end Yggdrasil.Ratatoskr
