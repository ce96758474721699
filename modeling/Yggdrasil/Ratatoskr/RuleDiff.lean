import Yggdrasil.Ratatoskr.RuleSet

/-!
# The reload diff as a patch

The four lists of a diff split the rules by name, and carried out on the old
rules they give the new ones.
-/

namespace Yggdrasil.Ratatoskr

open Foundation

def RuleDiff.apply (diff : RuleDiff) (table : RuleSet.RuleTable) : RuleSet.RuleTable :=
  fill Rule.name id (diff.added ++ diff.changed.map RuleChange.new)
    (eraseAll (diff.removed.map Rule.name) table)

namespace RuleSet

variable (old new : RuleSet)

theorem routesChanged_diff :
    (old.diff new).routesChanged = decide (old.routes ≠ new.routes) := by
  rw [diff_eq]

theorem isUnchanged_eq (find : String → Option Rule) (rule : Rule) :
    isUnchanged find rule = (!isAdded find rule && !(changeOf find rule).isSome) := by
  unfold isUnchanged isAdded changeOf
  cases find rule.name with
  | none => rfl
  | some found =>
      by_cases hsame : found = rule
      · simp [hsame]
      · simp [hsame]

theorem changeOf_of_isAdded {find : String → Option Rule} {rule : Rule}
    (h : isAdded find rule = true) : changeOf find rule = none := by
  unfold isAdded at h
  rw [changeOf, Option.isNone_iff_eq_none.1 h]

theorem perm_split (find : String → Option Rule) (rules : List Rule) :
    (rules.filter (isAdded find) ++ (rules.filter (fun rule => (changeOf find rule).isSome) ++
      rules.filter (isUnchanged find))).Perm rules := by
  have hchanged : (rules.filter (fun rule => !isAdded find rule)).filter
      (fun rule => (changeOf find rule).isSome) =
      rules.filter (fun rule => (changeOf find rule).isSome) := by
    rw [List.filter_filter]
    refine List.filter_congr fun rule _ => ?_
    cases hadded : isAdded find rule with
    | false => simp
    | true => simp [changeOf_of_isAdded hadded]
  have hunchanged : (rules.filter (fun rule => !isAdded find rule)).filter
      (fun rule => !(changeOf find rule).isSome) = rules.filter (isUnchanged find) := by
    rw [List.filter_filter]
    refine List.filter_congr fun rule _ => ?_
    rw [isUnchanged_eq, Bool.and_comm]
  have hrest := List.filter_append_perm (fun rule => (changeOf find rule).isSome)
    (rules.filter (fun rule => !isAdded find rule))
  rw [hchanged, hunchanged] at hrest
  exact (hrest.append_left _).trans (List.filter_append_perm (isAdded find) rules)

theorem perm_names_diff :
    ((old.diff new).added.map Rule.name ++
      ((old.diff new).changed.map (fun change => change.new.name) ++
        (old.diff new).unchanged)).Perm (new.rules.map Rule.name) := by
  have hchanged : (old.diff new).changed.map (fun change => change.new.name) =
      (new.rules.filter (fun rule => (changeOf old.find rule).isSome)).map Rule.name := by
    rw [← map_new_changed_diff, List.map_map]
    rfl
  rw [hchanged, added_diff, unchanged_diff, ← List.map_append, ← List.map_append]
  exact (perm_split old.find new.rules).map Rule.name

theorem nodup_names_written :
    (((old.diff new).added ++ (old.diff new).changed.map RuleChange.new).map Rule.name).Nodup := by
  have hnodup := (perm_names_diff old new).nodup_iff.2 new.names_nodup
  rw [← List.append_assoc] at hnodup
  rw [List.map_append, List.map_map]
  exact hnodup.of_append_left

theorem mem_written {rule : Rule} :
    rule ∈ (old.diff new).added ++ (old.diff new).changed.map RuleChange.new ↔
      rule ∈ new.rules ∧ old.find rule.name ≠ some rule := by
  rw [List.mem_append, mem_added_diff, List.mem_map]
  simp only [mem_changed_diff]
  constructor
  · rintro (⟨hnew, hnone⟩ | ⟨change, ⟨hnew, hold, hne⟩, rfl⟩)
    · exact ⟨hnew, by simp [hnone]⟩
    · exact ⟨hnew, fun hsame => hne (Option.some.inj (hold.symm.trans hsame))⟩
  · rintro ⟨hnew, hne⟩
    cases hold : old.find rule.name with
    | none => exact .inl ⟨hnew, rfl⟩
    | some found =>
        refine .inr ⟨⟨found, rule⟩, ⟨hnew, hold, fun hsame => hne ?_⟩, rfl⟩
        rw [hold]
        exact congrArg some hsame

theorem mem_names_removed_iff {name : String} :
    name ∈ (old.diff new).removed.map Rule.name ↔
      name ∈ old.rules.map Rule.name ∧ name ∉ new.rules.map Rule.name := by
  have habsent : ∀ name, new.find name = none ↔ name ∉ new.rules.map Rule.name := fun _ =>
    findKey_eq_none_iff Rule.name
  simp only [List.mem_map, mem_removed_diff]
  constructor
  · rintro ⟨rule, ⟨hold, hnone⟩, rfl⟩
    exact ⟨⟨rule, hold, rfl⟩, fun hmem => (habsent _).1 hnone (List.mem_map.2 hmem)⟩
  · rintro ⟨⟨rule, hold, rfl⟩, hnew⟩
    exact ⟨rule, ⟨hold, (habsent _).2 (fun hmem => hnew (List.mem_map.1 hmem))⟩, rfl⟩

theorem nodup_names_removed : ((old.diff new).removed.map Rule.name).Nodup := by
  rw [diff_eq]
  refine (((List.perm_insertionSort _ _).map Rule.name).nodup_iff).2 ?_
  have hkeys : ((eraseAll (new.rules.map Rule.name) (keyed Rule.name old.rules)).entries.map
      Sigma.snd).map Rule.name =
      (eraseAll (new.rules.map Rule.name) (keyed Rule.name old.rules)).keys := by
    rw [List.map_map, AList.keys, List.keys]
    refine List.map_congr_left ?_
    rintro ⟨name, rule⟩ hmem
    rw [mem_entries_iff, lookup_eraseAll] at hmem
    split at hmem
    · cases hmem
    · rw [lookup_keyed Rule.name old.names_nodup] at hmem
      exact ((findKey_eq_some_iff Rule.name old.names_nodup).1 hmem).2
  rw [hkeys]
  exact AList.keys_nodup _

theorem lookup_apply_diff (name : String) :
    ((old.diff new).apply (keyed Rule.name old.rules)).lookup name = new.find name := by
  have hkept : (eraseAll ((old.diff new).removed.map Rule.name)
      (keyed Rule.name old.rules)).lookup name =
      if name ∈ (old.diff new).removed.map Rule.name then none else old.find name := by
    rw [lookup_eraseAll, lookup_keyed Rule.name old.names_nodup, find]
  have hunwritten : (∀ rule ∈ new.rules, rule.name = name → old.find name = some rule) →
      ((old.diff new).apply (keyed Rule.name old.rules)).lookup name =
        if name ∈ (old.diff new).removed.map Rule.name then none else old.find name := by
    intro hsame
    rw [← hkept]
    refine lookup_fill_of_notMem Rule.name id fun hmem => ?_
    obtain ⟨rule, hrule, rfl⟩ := List.mem_map.1 hmem
    obtain ⟨hnew, hne⟩ := (mem_written old new).1 hrule
    exact hne (hsame rule hnew rfl)
  cases hnew : new.find name with
  | none =>
      have hout : name ∉ new.rules.map Rule.name := (findKey_eq_none_iff Rule.name).1 hnew
      rw [hunwritten (fun rule hrule hname =>
        absurd (List.mem_map.2 ⟨rule, hrule, hname⟩) hout)]
      split
      · rfl
      next hkeep =>
        rw [mem_names_removed_iff, not_and_not_right] at hkeep
        exact (findKey_eq_none_iff Rule.name).2 (fun hold => hout (hkeep hold))
  | some rule =>
      obtain ⟨hrule, rfl⟩ := new.find_eq_some_iff.1 hnew
      by_cases hsame : old.find rule.name = some rule
      · rw [hunwritten, if_neg, hsame]
        · exact fun hgone => ((mem_names_removed_iff old new).1 hgone).2 (List.mem_map_of_mem hrule)
        · intro other hother hname
          rw [hsame]
          exact hnew.symm.trans (hname ▸ new.find_of_mem hother)
      · exact lookup_fill_of_mem Rule.name id (nodup_names_written old new)
          ((mem_written old new).2 ⟨hrule, hsame⟩)

theorem mem_names_changed_iff {name : String} :
    name ∈ (old.diff new).changed.map (fun change => change.new.name) ↔
      ∃ oldRule newRule, old.find name = some oldRule ∧ new.find name = some newRule ∧
        oldRule ≠ newRule := by
  simp only [List.mem_map, mem_changed_diff]
  constructor
  · rintro ⟨change, ⟨hnew, hold, hne⟩, rfl⟩
    exact ⟨change.old, change.new, hold, new.find_of_mem hnew, hne⟩
  · rintro ⟨oldRule, newRule, hold, hnew, hne⟩
    obtain ⟨hrule, rfl⟩ := new.find_eq_some_iff.1 hnew
    exact ⟨⟨oldRule, newRule⟩, ⟨hrule, hold, hne⟩, rfl⟩

theorem isNoop_diff_iff :
    (old.diff new).isNoop = true ↔
      (∀ name, old.find name = new.find name) ∧ old.routes = new.routes := by
  have hroutes := routesChanged_diff old new
  simp only [RuleDiff.isNoop, Bool.and_eq_true, List.isEmpty_iff, hroutes, Bool.not_eq_true',
    decide_eq_false_iff_not, not_not]
  constructor
  · rintro ⟨⟨⟨hadded, hremoved⟩, hchanged⟩, hsame⟩
    refine ⟨fun name => ?_, hsame⟩
    rw [← lookup_apply_diff old new, RuleDiff.apply, hadded, hremoved, hchanged]
    exact (lookup_keyed Rule.name old.names_nodup name).symm
  · rintro ⟨hfind, hsame⟩
    refine ⟨⟨⟨?_, ?_⟩, ?_⟩, hsame⟩
    · refine List.eq_nil_iff_forall_not_mem.2 fun rule hrule => ?_
      obtain ⟨hnew, hnone⟩ := (mem_added_diff old new).1 hrule
      rw [hfind, new.find_of_mem hnew] at hnone
      cases hnone
    · refine List.eq_nil_iff_forall_not_mem.2 fun rule hrule => ?_
      obtain ⟨hold, hnone⟩ := (mem_removed_diff old new).1 hrule
      rw [← hfind, old.find_of_mem hold] at hnone
      cases hnone
    · refine List.eq_nil_iff_forall_not_mem.2 fun change hchange => ?_
      obtain ⟨hnew, hold, hne⟩ := (mem_changed_diff old new).1 hchange
      rw [hfind, new.find_of_mem hnew] at hold
      exact hne (Option.some.inj hold).symm

/--
The diff sorts the names of the new set into three lists, removes the names the
new set lacks, and turns the old rules into the new ones; it says that nothing
changes exactly when nothing does.
-/
theorem diff_is_patch (old new : RuleSet) :
    ((old.diff new).added.map Rule.name ++
        ((old.diff new).changed.map (fun change => change.new.name) ++
          (old.diff new).unchanged)).Perm (new.rules.map Rule.name) ∧
    ((old.diff new).removed.map Rule.name).Nodup ∧
    (∀ name, name ∈ (old.diff new).removed.map Rule.name ↔
      name ∈ old.rules.map Rule.name ∧ name ∉ new.rules.map Rule.name) ∧
    (∀ name, ((old.diff new).apply (keyed Rule.name old.rules)).lookup name =
      (keyed Rule.name new.rules).lookup name) ∧
    (∀ name, name ∈ (old.diff new).changed.map (fun change => change.new.name) ↔
      ∃ oldRule newRule, old.find name = some oldRule ∧ new.find name = some newRule ∧
        oldRule ≠ newRule) ∧
    ((old.diff new).isNoop = true ↔
      (∀ name, old.find name = new.find name) ∧ old.routes = new.routes) := by
  refine ⟨perm_names_diff old new, nodup_names_removed old new,
    fun _ => mem_names_removed_iff old new, fun name => ?_, fun _ => mem_names_changed_iff old new,
    isNoop_diff_iff old new⟩
  rw [lookup_apply_diff, lookup_keyed Rule.name new.names_nodup, find]

end RuleSet

end Yggdrasil.Ratatoskr
